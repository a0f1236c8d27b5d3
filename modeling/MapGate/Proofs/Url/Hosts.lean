import MapGate.Proofs.Net.Ipv6
import MapGate.Proofs.Url.Domains
import MapGate.Url.Parser

/-!
# Hosts read back

A host that was read after a special scheme is an address, or a domain in normal form that is
no number (`isNormal_of_ofSpecial?`). Such a host is read back from its text
(`ofSpecial?_renderChars`), which ends no authority (`isHostChar_renderChars`) and is cut from
the port number behind it (`spanHost_renderChars`).
-/

namespace MapGate.Url

namespace Host

/-! ## Numeric addresses -/

/-- A decimal number is read as a part of an address. -/
theorem part?_toDigits (n : Nat) : part? (Nat.toDigits 10 n) = some n := by
  have decimal : Text.number? 10 (Nat.toDigits 10 n) = some n :=
    Text.number?_toDigits (by decide) (by decide) n
  by_cases zero : n = 0
  · rw [zero]
    rfl
  · have front := mt (Text.head?_toDigits n) zero
    generalize Nat.toDigits 10 n = digits at decimal front
    -- No number but zero starts with a zero, so the digits are neither octal nor hexadecimal.
    unfold part?
    split <;> first | exact absurd rfl front | exact decimal

theorem dot_notMem_toDigits (n : Nat) : '.' ∉ Nat.toDigits 10 n := fun h =>
  absurd (Text.isDigit_toDigits n '.' h) (by decide)

/-- The numbers of an address, as they are written. -/
def byteTexts (ip : Ipv4) : List (List Char) :=
  [ip.a, ip.b, ip.c, ip.d].map fun byte => Nat.toDigits 10 byte.toNat

theorem labels_renderChars (ip : Ipv4) : labels ip.renderChars = byteTexts ip := by
  have cut : ip.renderChars.splitOn '.' = byteTexts ip :=
    List.splitOn_intercalate '.' (fun text ht => by
      obtain ⟨byte, -, rfl⟩ := List.mem_map.1 ht
      exact dot_notMem_toDigits _) (by simp)
  have last : (byteTexts ip).getLast? ≠ some [] := by simp [byteTexts]
  rw [labels, cut, if_neg last]

theorem addressOfParts?_bytes (ip : Ipv4) :
    addressOfParts? [ip.a.toNat, ip.b.toNat, ip.c.toNat, ip.d.toNat] = some ip := by
  have ha := ip.a.toNat_lt
  have hb := ip.b.toNat_lt
  have hc := ip.c.toNat_lt
  have hd := ip.d.toNat_lt
  obtain ⟨a, b, c, d⟩ := ip
  dsimp only at ha hb hc hd ⊢
  simp [addressOfParts?, Ipv4.ofNat, ← UInt8.toNat_inj]
  omega

theorem address?_renderChars (ip : Ipv4) : address? ip.renderChars = some ip := by
  have parts : (byteTexts ip).mapM part? =
      some [ip.a.toNat, ip.b.toNat, ip.c.toNat, ip.d.toNat] := by
    simp [byteTexts, part?_toDigits]
  rw [address?, labels_renderChars, parts]
  exact addressOfParts?_bytes ip

theorem endsInNumber_renderChars (ip : Ipv4) : endsInNumber ip.renderChars = true := by
  have last : (byteTexts ip).getLast? = some (Nat.toDigits 10 ip.d.toNat) := rfl
  rw [endsInNumber, labels_renderChars, last]
  simp only [part?_toDigits, Option.isSome_some, Bool.or_true]

/-- The text of an address consists of digits and points. -/
theorem of_mem_renderChars_v4 {ip : Ipv4} {c : Char} (h : c ∈ ip.renderChars) :
    c = '.' ∨ ∃ d < 10, c = Nat.digitChar d := by
  refine Text.forall_mem_intercalate (p := fun c => c = '.' ∨ ∃ d < 10, c = Nat.digitChar d)
    (fun c hc => .inl (List.mem_singleton.1 hc)) (fun text ht c hc => ?_) c h
  obtain ⟨byte, -, rfl⟩ := List.mem_map.1 ht
  exact .inr (Text.exists_of_mem_toDigits (by decide) hc)

theorem renderChars_v4_ne_nil (ip : Ipv4) : ip.renderChars ≠ [] := by
  simp [Ipv4.renderChars, List.intercalate_cons_cons]

theorem isDomainChar_v4 (ip : Ipv4) : ∀ c ∈ ip.renderChars, isDomainChar c = true := by
  have digits : ∀ d < 10, isDomainChar (Nat.digitChar d) = true := by decide
  intro c hc
  obtain rfl | ⟨d, hd, rfl⟩ := of_mem_renderChars_v4 hc
  · decide
  · exact digits d hd

/-! ## Hosts in normal form -/

/-- A host as it is read after a special scheme. -/
def IsNormal : Host → Prop
  | name text => text ≠ [] ∧ (∀ c ∈ text, isDomainChar c = true) ∧ endsInNumber text = false
  | v4 _ => True
  | v6 _ => True

theorem bracketed?_cases {l : List Char} {host : Host} (h : bracketed? l = some host) :
    ∃ ip, host = v6 ip := by
  rw [bracketed?] at h
  split at h
  · obtain ⟨ip, -, rfl⟩ := Option.map_eq_some_iff.1 h
    exact ⟨ip, rfl⟩
  · cases h

/-- What does not start with a bracket is read as a domain. -/
theorem ofSpecial?_of_ne {l : List Char} (h : ∀ rest, l ≠ '[' :: rest) :
    ofSpecial? l = (domain? l).bind fun domain =>
      if endsInNumber domain then (address? domain).map v4 else some (name domain) := by
  unfold ofSpecial?
  split
  · rename_i rest
    exact absurd rfl (h rest)
  · rfl

theorem isNormal_of_ofSpecial? {l : List Char} {host : Host} (h : ofSpecial? l = some host) :
    host.IsNormal := by
  by_cases bracket : ∃ rest, l = '[' :: rest
  · obtain ⟨rest, rfl⟩ := bracket
    obtain ⟨ip, rfl⟩ := bracketed?_cases h
    trivial
  · rw [ofSpecial?_of_ne fun rest e => bracket ⟨rest, e⟩] at h
    obtain ⟨domain, hd, h⟩ := Option.bind_eq_some_iff.1 h
    obtain ⟨filled, chars⟩ := isDomainChar_of_domain? hd
    split at h
    · obtain ⟨ip, -, rfl⟩ := Option.map_eq_some_iff.1 h
      trivial
    · rename_i name
      obtain rfl := Option.some.inj h
      exact ⟨filled, chars, Bool.not_eq_true _ ▸ name⟩

theorem ne_bracket_cons {l rest : List Char} (h : ∀ c ∈ l, isDomainChar c = true) :
    l ≠ '[' :: rest := by
  rintro rfl
  exact absurd (h '[' List.mem_cons_self) (by decide)

/-- A host in normal form is read back from its text. -/
theorem ofSpecial?_renderChars {host : Host} (h : host.IsNormal) :
    ofSpecial? host.renderChars = some host := by
  cases host with
  | name text =>
    obtain ⟨filled, chars, noNumber⟩ := h
    rw [renderChars, ofSpecial?_of_ne fun _ => ne_bracket_cons chars, domain?_eq_self filled chars]
    simp only [Option.bind_some, noNumber, Bool.false_eq_true, if_false]
  | v4 ip =>
    have chars := isDomainChar_v4 ip
    rw [renderChars, ofSpecial?_of_ne fun _ => ne_bracket_cons chars,
      domain?_eq_self (renderChars_v4_ne_nil ip) chars]
    simp only [Option.bind_some, endsInNumber_renderChars, if_true, address?_renderChars,
      Option.map_some]
  | v6 ip =>
    have read : bracketed? (ip.renderChars ++ [']']) = some (v6 ip) := by
      rw [bracketed?, List.getLast?_concat, if_pos rfl, List.dropLast_concat,
        Ipv6.ofChars?_renderChars, Option.map_some]
    exact read

/-- A host in normal form is not empty. -/
theorem isEmpty_of_isNormal {host : Host} (h : host.IsNormal) : host.isEmpty = false := by
  cases host with
  | name text => exact beq_eq_false_iff_ne.2 fun e => h.1 (name.inj e)
  | _ => rfl

theorem renderChars_ne_nil {host : Host} (h : host.IsNormal) : host.renderChars ≠ [] := by
  cases host with
  | name text => exact h.1
  | v4 ip => exact renderChars_v4_ne_nil ip
  | v6 ip => exact List.cons_ne_nil _ _

/-! ## Where a host ends -/

/-- Whether a character may stand in a host. -/
def isHostChar (c : Char) : Bool := 0x20 < c.toNat && !"#/?@\\".toList.contains c

theorem isHostChar_renderChars {host : Host} (h : host.IsNormal) :
    ∀ c ∈ host.renderChars, isHostChar c = true := by
  have domain : ∀ c, isDomainChar c = true → isHostChar c = true := fun c hc => by
    have allowed := (isDomainChar_iff.1 hc).2.2
    have ne : ∀ d, isForbidden d = true → c ≠ d := fun d hd e => by
      rw [e, hd] at allowed
      cases allowed
    have above : 0x20 < c.toNat := by
      rw [isForbidden, Bool.or_eq_false_iff, Bool.or_eq_false_iff] at allowed
      exact Nat.not_le.1 (decide_eq_false_iff_not.1 allowed.1.1)
    simp [isHostChar, above, ne '#' (by decide), ne '/' (by decide), ne '?' (by decide),
      ne '@' (by decide), ne '\\' (by decide)]
  cases host with
  | name text => exact fun c hc => domain c (h.2.1 c hc)
  | v4 ip => exact fun c hc => domain c (isDomainChar_v4 ip c hc)
  | v6 ip =>
    have digits : ∀ d < 16, isHostChar (Nat.digitChar d) = true := by decide
    intro c hc
    rw [renderChars, List.cons_append, List.mem_cons, List.mem_append, List.mem_singleton] at hc
    rcases hc with rfl | hc | rfl
    · decide
    · obtain rfl | ⟨d, hd, rfl⟩ := Ipv6.mem_renderChars hc
      · decide
      · exact digits d hd
    · decide

/-- What may follow a host: a port number after a colon. -/
def EndsHost (rest : List Char) : Prop := ∀ c, rest.head? = some c → c = ':'

theorem spanHost_of_endsHost {rest : List Char} (h : EndsHost rest) :
    spanHost false rest = ([], rest) := by
  cases rest with
  | nil => rfl
  | cons c rest =>
    obtain rfl := h c rfl
    rfl

theorem spanHost_append {text rest : List Char} (h : ∀ c ∈ text, isDomainChar c = true)
    (hr : EndsHost rest) : spanHost false (text ++ rest) = (text, rest) := by
  induction text with
  | nil => exact spanHost_of_endsHost hr
  | cons c text ih =>
    obtain ⟨hc, others⟩ := List.forall_mem_cons.1 h
    have colon : c ≠ ':' := fun e => absurd (e ▸ hc) (by decide)
    have bracket : c ≠ '[' := fun e => absurd (e ▸ hc) (by decide)
    rw [List.cons_append, spanHost]
    simp [colon, bracket, ih others]

theorem spanHost_bracketed {text rest : List Char} (h : ']' ∉ text) (hr : EndsHost rest) :
    spanHost true (text ++ ']' :: rest) = (text ++ [']'], rest) := by
  induction text with
  | nil =>
    rw [List.nil_append, spanHost]
    simp [spanHost_of_endsHost hr]
  | cons c text ih =>
    rw [List.mem_cons, not_or] at h
    rw [List.cons_append, spanHost]
    simp [Ne.symm h.1, ih h.2]

/-- A host is cut from what follows it. -/
theorem spanHost_renderChars {host : Host} {rest : List Char} (h : host.IsNormal)
    (hr : EndsHost rest) :
    spanHost false (host.renderChars ++ rest) = (host.renderChars, rest) := by
  cases host with
  | name text => exact spanHost_append h.2.1 hr
  | v4 ip => exact spanHost_append (isDomainChar_v4 ip) hr
  | v6 ip =>
    have closing : ']' ∉ ip.renderChars := fun hc => by
      have digits : ∀ d < 16, ']' ≠ Nat.digitChar d := by decide
      obtain e | ⟨d, hd, e⟩ := Ipv6.mem_renderChars hc
      · exact absurd e (by decide)
      · exact digits d hd e
    have inside := spanHost_bracketed closing hr
    rw [renderChars, List.cons_append, List.cons_append, List.append_assoc, List.singleton_append,
      spanHost]
    simp [inside]

end Host

end MapGate.Url
