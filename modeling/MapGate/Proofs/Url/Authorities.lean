import MapGate.Proofs.Url.Hosts

/-!
# Authorities read back

An authority that was read after a special scheme is in normal form: user information is
encoded, the host is as it is read, and a port number is not the one of the scheme
(`Authority.isNormal_of_ofChars?`). Such an authority is read back from its text
(`Authority.ofChars?_renderChars`), in which nothing ends it (`isAuthorityChar_renderChars`).
-/

namespace MapGate.Url

/-! ## Characters -/

/-- A statement about the characters that can stand for themselves anywhere, from all of
their numbers. -/
theorem forall_graphic {p : Char → Bool} (h : ∀ n < 0x7F, p (Char.ofNat n) = true) {c : Char}
    (hc : isGraphic c = true) : p c = true := by
  rw [isGraphic, Bool.and_eq_true, decide_eq_true_eq, decide_eq_true_eq] at hc
  have := h c.toNat hc.2
  rwa [Char.ofNat_toNat] at this

theorem isGraphic_of_keepsInFragment {c : Char} (h : keepsInFragment c = true) :
    isGraphic c = true :=
  (Bool.and_eq_true_iff.1 h).1

theorem isGraphic_of_keepsInUserInfo {c : Char} (h : keepsInUserInfo c = true) :
    isGraphic c = true :=
  isGraphic_of_keepsInFragment (Bool.and_eq_true_iff.1 (Bool.and_eq_true_iff.1 h).1).1

/-- Whether a character may stand in an authority, in normal form, without ending it. -/
def isAuthorityChar (c : Char) : Bool := 0x20 < c.toNat && !endsAuthority true c

theorem keepsInUserInfo_separates {c : Char} (h : keepsInUserInfo c = true) :
    isAuthorityChar c = true ∧ c ≠ ':' ∧ c ≠ '@' := by
  have all := forall_graphic
    (p := fun c => !keepsInUserInfo c || (isAuthorityChar c && c ≠ ':' && c ≠ '@'))
    (by decide +kernel) (isGraphic_of_keepsInUserInfo h)
  simpa [h, and_assoc] using all

theorem keepsInUserInfo_percentEncode (l : List Char) :
    ∀ c ∈ Text.percentEncode keepsInUserInfo l, keepsInUserInfo c = true :=
  Text.forall_mem_percentEncode (fun _ _ => id) (Text.forall_byte (by decide +kernel))

namespace Authority

/-- An authority as it is read after a special scheme. -/
structure IsNormal (scheme : String) (authority : Authority) : Prop where
  username : ∀ c ∈ authority.username, keepsInUserInfo c = true
  password : ∀ c ∈ authority.password, keepsInUserInfo c = true
  host : authority.host.IsNormal
  number : ∀ n, authority.portNumber? = some n → n < 0x10000 ∧ some n ≠ defaultNumber? scheme

variable {scheme : String} {authority : Authority}

/-! ## Reading -/

theorem number_of_readNumber? {l : List Char} {number? : Option Nat}
    (h : readNumber? scheme l = some number?) :
    ∀ n, number? = some n → n < 0x10000 ∧ some n ≠ defaultNumber? scheme := by
  unfold readNumber? at h
  split at h
  · cases h
    exact fun _ => nofun
  · cases h
    exact fun _ => nofun
  · obtain ⟨n, read, h⟩ := Option.bind_eq_some_iff.1 h
    have small := (Option.filter_eq_some_iff.1 read).2
    obtain rfl := Option.some.inj h
    intro m hm
    split at hm
    · cases hm
    · rename_i other
      cases hm
      exact ⟨by simpa using small, other⟩

/-- An authority that was read is in normal form. -/
theorem isNormal_of_ofChars? (hs : isSpecialScheme scheme = true) {l : List Char} {atEnd : Bool}
    (h : ofChars? scheme l atEnd = some authority) : authority.IsNormal scheme := by
  unfold ofChars? at h
  dsimp only at h
  rw [if_pos hs] at h
  obtain ⟨host, hh, h⟩ := Option.bind_eq_some_iff.1 h
  obtain ⟨number?, hn, h⟩ := Option.bind_eq_some_iff.1 h
  split at h
  · cases h
  · cases h
    exact ⟨keepsInUserInfo_percentEncode _, keepsInUserInfo_percentEncode _,
      Host.isNormal_of_ofSpecial? hh, number_of_readNumber? hn⟩

/-! ## Reading back -/

/-- The text of the port number, behind the host. -/
def numberChars (authority : Authority) : List Char :=
  match authority.portNumber? with
  | some n => ':' :: Nat.toDigits 10 n
  | none => []

/-- The user information, without the at sign behind it. -/
def infoChars (authority : Authority) : List Char :=
  authority.username ++ if authority.password.isEmpty then [] else ':' :: authority.password

theorem renderChars_eq (authority : Authority) : authority.renderChars =
    (if authority.username.isEmpty && authority.password.isEmpty then []
      else authority.infoChars ++ ['@']) ++
      (authority.host.renderChars ++ authority.numberChars) := by
  rw [renderChars, infoChars, numberChars]
  exact List.append_assoc _ _ _

theorem endsHost_numberChars (authority : Authority) : Host.EndsHost authority.numberChars := by
  intro c hc
  rw [numberChars] at hc
  split at hc
  · exact (Option.some.inj hc).symm
  · cases hc

theorem readNumber?_numberChars (h : authority.IsNormal scheme) :
    readNumber? scheme authority.numberChars = some authority.portNumber? := by
  rw [numberChars]
  split
  · rename_i n hn
    obtain ⟨small, other⟩ := h.number n hn
    have read : Text.number? 10 (Nat.toDigits 10 n) = some n :=
      Text.number?_toDigits (by decide) (by decide) n
    obtain ⟨c, digits, e⟩ := List.exists_cons_of_ne_nil (Nat.toDigits_ne_nil (n := n) (b := 10))
    rw [e] at read ⊢
    rw [readNumber?, read, Option.filter_some, if_pos (by simpa using small)]
    · rw [Option.bind_eq_bind, Option.bind_some, if_neg other, hn]
    · exact nofun
  · rename_i hn
    rw [hn]
    rfl

theorem at_notMem (h : authority.IsNormal scheme) :
    '@' ∉ authority.host.renderChars ++ authority.numberChars := by
  intro hm
  rcases List.mem_append.1 hm with hm | hm
  · exact absurd (Host.isHostChar_renderChars h.host _ hm) (by decide)
  · rw [numberChars] at hm
    split at hm
    · rcases List.mem_cons.1 hm with e | hm
      · exact absurd e (by decide)
      · exact absurd (Text.isDigit_toDigits _ _ hm) (by decide)
    · cases hm

theorem splitUserInfo_of_notMem {l : List Char} (h : '@' ∉ l) : splitUserInfo l = (none, l) := by
  have none : l.reverse.dropWhile (· ≠ '@') = [] := by
    refine List.dropWhile_eq_nil_iff.2 fun c hc => ?_
    simpa using fun e : c = '@' => h (e ▸ List.mem_reverse.1 hc)
  rw [splitUserInfo, none]

theorem splitUserInfo_append {l : List Char} (h : '@' ∉ l) (info : List Char) :
    splitUserInfo (info ++ ['@'] ++ l) = (some info, l) := by
  have other : ∀ c ∈ l.reverse, decide (c ≠ '@') = true := fun c hc => by
    simpa using fun e : c = '@' => h (e ▸ List.mem_reverse.1 hc)
  rw [splitUserInfo, List.reverse_append, List.reverse_append,
    List.dropWhile_append_of_pos other, List.takeWhile_append_of_pos other]
  simp

/-- User name and password are cut at the colon between them. -/
theorem cut_infoChars (h : authority.IsNormal scheme) :
    authority.infoChars.takeWhile (· ≠ ':') = authority.username ∧
      (authority.infoChars.dropWhile (· ≠ ':')).drop 1 = authority.password := by
  have other : ∀ c ∈ authority.username, decide (c ≠ ':') = true := fun c hc =>
    decide_eq_true (keepsInUserInfo_separates (h.username c hc)).2.1
  rw [infoChars, List.takeWhile_append_of_pos other, List.dropWhile_append_of_pos other]
  split
  · rename_i none
    rw [List.isEmpty_iff.1 none]
    simp
  · simp

/-- An authority in normal form is read back from its text. -/
theorem ofChars?_renderChars (hs : isSpecialScheme scheme = true) (h : authority.IsNormal scheme)
    (atEnd : Bool) : ofChars? scheme authority.renderChars atEnd = some authority := by
  have host := Host.spanHost_renderChars h.host authority.endsHost_numberChars
  have filled := Host.isEmpty_of_isNormal h.host
  have username := Text.percentEncode_eq_self h.username
  have password := Text.percentEncode_eq_self h.password
  rw [renderChars_eq]
  split
  · rename_i none
    rw [Bool.and_eq_true, List.isEmpty_iff, List.isEmpty_iff] at none
    unfold ofChars?
    rw [List.nil_append, splitUserInfo_of_notMem (at_notMem h)]
    dsimp only
    rw [host]
    simp only [if_pos hs, Host.ofSpecial?_renderChars h.host, readNumber?_numberChars h,
      Option.bind_eq_bind, Option.bind_some, filled, Bool.false_and, Bool.false_eq_true, if_false]
    obtain ⟨name, word, host, number?⟩ := authority
    obtain ⟨rfl, rfl⟩ := none
    rfl
  · obtain ⟨cutName, cutWord⟩ := cut_infoChars h
    unfold ofChars?
    rw [splitUserInfo_append (at_notMem h)]
    dsimp only
    rw [host]
    simp only [if_pos hs, Host.ofSpecial?_renderChars h.host, readNumber?_numberChars h,
      Option.bind_eq_bind, Option.bind_some, filled, Bool.false_and, Bool.false_eq_true, if_false,
      Option.getD_some, cutName, cutWord, username, password]

/-- Nothing in the text of an authority in normal form ends it. -/
theorem isAuthorityChar_renderChars (h : authority.IsNormal scheme) :
    ∀ c ∈ authority.renderChars, isAuthorityChar c = true := by
  have info : ∀ c ∈ authority.infoChars ++ ['@'], isAuthorityChar c = true := by
    have word : ∀ c ∈ ':' :: authority.password, isAuthorityChar c = true :=
      List.forall_mem_cons.2 ⟨by decide, fun c hc =>
        (keepsInUserInfo_separates (h.password c hc)).1⟩
    refine List.forall_mem_append.2 ⟨List.forall_mem_append.2 ⟨fun c hc =>
      (keepsInUserInfo_separates (h.username c hc)).1, ?_⟩, List.forall_mem_singleton.2 (by decide)⟩
    split
    · exact List.forall_mem_nil _
    · exact word
  have host : ∀ c ∈ authority.host.renderChars, isAuthorityChar c = true := fun c hc => by
    have plain := Host.isHostChar_renderChars h.host c hc
    rw [Host.isHostChar, Bool.and_eq_true, Bool.not_eq_true', decide_eq_true_eq] at plain
    have ne : ∀ d ∈ "#/?@\\".toList, c ≠ d := fun d hd e => by
      rw [e, List.contains_iff_mem.2 hd] at plain
      cases plain.2
    simp [isAuthorityChar, endsAuthority, isSlash, plain.1, ne '#' (by decide), ne '/' (by decide),
      ne '?' (by decide), ne '\\' (by decide)]
  have number : ∀ c ∈ authority.numberChars, isAuthorityChar c = true := by
    have digits : ∀ d < 10, isAuthorityChar (Nat.digitChar d) = true := by decide
    rw [numberChars]
    split
    · refine List.forall_mem_cons.2 ⟨by decide, fun c hc => ?_⟩
      obtain ⟨d, hd, rfl⟩ := Text.exists_of_mem_toDigits (by decide) hc
      exact digits d hd
    · exact List.forall_mem_nil _
  rw [renderChars_eq]
  refine List.forall_mem_append.2 ⟨?_, List.forall_mem_append.2 ⟨host, number⟩⟩
  split
  · exact List.forall_mem_nil _
  · exact info

theorem renderChars_ne_nil (h : authority.IsNormal scheme) : authority.renderChars ≠ [] := by
  rw [renderChars_eq]
  exact List.append_ne_nil_of_right_ne_nil _
    (List.append_ne_nil_of_left_ne_nil (Host.renderChars_ne_nil h.host) _)

end Authority

end MapGate.Url
