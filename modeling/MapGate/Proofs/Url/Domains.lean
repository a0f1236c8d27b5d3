import MapGate.Proofs.Text.LetterCase
import MapGate.Proofs.Text.Percent
import MapGate.Proofs.Text.Pieces
import MapGate.Proofs.Text.Utf8
import MapGate.Url.Host

/-!
# Domains in normal form

A domain that was read consists of small ASCII characters that no domain is forbidden to
have (`isDomainChar_of_domain?`): what is not ASCII in it is written in letters, digits and
hyphens (`Punycode.of_mem_encode`). A domain in this form is read as it is
(`domain?_eq_self`).
-/

namespace MapGate.Url

/-! ## Encoded labels -/

namespace Punycode

/-- The digits of an encoded label. -/
def IsDigit (c : Char) : Prop := ∃ n < 36, c = digit n

theorem threshold_le (k bias : Nat) : threshold k bias ≤ 26 := Nat.min_le_left _ _

theorem isDigit_digits (bias k n : Nat) : ∀ c ∈ digits bias k n, IsDigit c := by
  have le := threshold_le k bias
  induction n using Nat.strong_induction_on generalizing k with
  | _ n ih =>
    intro c hc
    rw [digits] at hc
    split at hc
    · rename_i small
      exact ⟨n, by omega, List.mem_singleton.1 hc⟩
    · have one : 1 ≤ threshold k bias := by simp only [threshold]; omega
      have fewer := Nat.div_le_self (n - threshold k bias) (36 - threshold k bias)
      rcases List.mem_cons.1 hc with rfl | hc
      · have := Nat.mod_lt (n - threshold k bias) (y := 36 - threshold k bias) (by omega)
        exact ⟨_, by omega, rfl⟩
      · exact ih _ (by omega) (k + 36) (threshold_le ..) c hc

/-- Only digits were written. -/
def Progress.Digital (progress : Progress) : Prop := ∀ c ∈ progress.written, IsDigit c

theorem Progress.Digital.pass {progress : Progress} (h : progress.Digital) (basic m : Nat)
    (c : Char) : (progress.pass basic m c).Digital := by
  rw [Progress.pass]
  split
  · exact h
  · split
    · exact List.forall_mem_append.2 ⟨h, isDigit_digits _ _ _⟩
    · exact h

theorem Progress.Digital.foldl {progress : Progress} (h : progress.Digital) (basic m : Nat)
    (label : List Char) : (label.foldl (Progress.pass basic m) progress).Digital := by
  induction label generalizing progress with
  | nil => exact h
  | cons c label ih => exact ih (h.pass basic m c)

theorem Progress.Digital.encodeFrom {progress : Progress} (h : progress.Digital)
    (label : List Char) (basic : Nat) (ms : List Nat) (n : Nat) :
    (encodeFrom label basic ms n progress).Digital := by
  induction ms generalizing n progress with
  | nil => exact h
  | cons m ms ih =>
    have start : Digital { progress with
        distance := progress.distance + (m - n) * (progress.count + 1) } := h
    have passed := start.foldl basic m label
    rw [Punycode.encodeFrom]
    refine ih ?_ (m + 1)
    exact passed

/-- What an encoded label consists of. -/
theorem of_mem_encode {label : List Char} {c : Char} (h : c ∈ encode label) :
    c ∈ label ∧ c.toNat < 0x80 ∨ c = '-' ∨ IsDigit c := by
  have start : Progress.Digital ⟨[], 0, 72, (label.filter (·.toNat < 0x80)).length⟩ :=
    List.forall_mem_nil _
  have written := start.encodeFrom label (label.filter (·.toNat < 0x80)).length
    ((label.map Char.toNat).filter (0x80 ≤ ·)).mergeSort.eraseReps 0x80
  rw [encode] at h
  rcases List.mem_append.1 h with h | h
  · split at h
    · cases h
    · rcases List.mem_append.1 h with h | h
      · exact .inl (by simpa using List.mem_filter.1 h)
      · exact .inr (.inl (List.mem_singleton.1 h))
  · exact .inr (.inr (written c h))

end Punycode

namespace Host

/-! ## Characters of domains -/

/-- Whether a character may stand in a domain in normal form. -/
def isDomainChar (c : Char) : Bool := c.toNat < 0x80 && c.toLower == c && !isForbidden c

theorem isDomainChar_iff {c : Char} :
    isDomainChar c = true ↔ c.toNat < 0x80 ∧ c.toLower = c ∧ isForbidden c = false := by
  simp [isDomainChar, and_assoc]

theorem toSmall_of_lt {c : Char} (h : c.toNat < 0x80) : toSmall c = c.toLower := if_pos h

theorem toNat_ofNat_of_lt {n : Nat} (h : n < 0xD800) : (Char.ofNat n).toNat = n := by
  rw [Char.ofNat, dif_pos (.inl h : n.isValidChar)]
  rfl

/-- What is made small is beyond ASCII or a small letter of it. -/
theorem toSmall_cases (c : Char) :
    0x80 ≤ (toSmall c).toNat ∨ ∃ d : Char, toSmall c = d.toLower := by
  have beyond : ∀ n, n < 0xD800 → 0x80 ≤ n → 0x80 ≤ (Char.ofNat n).toNat := fun n hn hl => by
    rwa [toNat_ofNat_of_lt hn]
  unfold toSmall
  dsimp only
  split
  · exact .inr ⟨c, rfl⟩
  split
  · rename_i letter
    simp only [Bool.or_eq_true, Bool.and_eq_true, decide_eq_true_eq] at letter
    exact .inl (beyond _ (by omega) (by omega))
  split
  · rename_i letter
    simp only [Bool.and_eq_true, decide_eq_true_eq] at letter
    exact .inl (beyond _ (by omega) (by omega))
  split
  · rename_i letter
    simp only [Bool.or_eq_true, Bool.and_eq_true, decide_eq_true_eq] at letter
    exact .inl (beyond _ (by omega) (by omega))
  split
  · exact .inr ⟨_, rfl⟩
  split
  · exact .inr ⟨'.', rfl⟩
  · exact .inl (by omega)

theorem toLower_toSmall {c : Char} (h : (toSmall c).toNat < 0x80) :
    (toSmall c).toLower = toSmall c := by
  obtain beyond | ⟨d, e⟩ := toSmall_cases c
  · omega
  · rw [e, Text.toLower_toLower]

/-! ## Reading -/

/-- A label in ASCII consists of characters that may stand in a domain, if this holds of its
ASCII characters. -/
theorem isDomainChar_asciiLabel {label : List Char}
    (h : ∀ c ∈ label, c.toNat < 0x80 → isDomainChar c = true) :
    ∀ c ∈ asciiLabel label, isDomainChar c = true := by
  have digits : ∀ n < 36, isDomainChar (Punycode.digit n) = true := by decide
  intro c hc
  rw [asciiLabel] at hc
  split at hc
  · rename_i ascii
    exact h c hc (by simpa using List.all_eq_true.1 ascii c hc)
  · rcases List.mem_append.1 hc with hc | hc
    · have front : "xn--".toList.all isDomainChar = true := by decide
      exact List.all_eq_true.1 front c hc
    · obtain ⟨hc, ascii⟩ | rfl | ⟨n, hn, rfl⟩ := Punycode.of_mem_encode hc
      · exact h c hc ascii
      · decide
      · exact digits n hn

theorem asciiLabel_eq_nil {label : List Char} (h : asciiLabel label = []) : label = [] := by
  rw [asciiLabel] at h
  split at h
  · exact h
  · cases h

/-- A domain that was read is there, and is in normal form. -/
theorem isDomainChar_of_domain? {l domain : List Char} (h : domain? l = some domain) :
    domain ≠ [] ∧ ∀ c ∈ domain, isDomainChar c = true := by
  rw [domain?] at h
  generalize Text.Utf8.decodeChars (Text.percentDecode (Text.Utf8.encodeChars l)) = decoded at h
  split at h
  · cases h
  · rename_i fine
    rw [Bool.or_eq_true, not_or, List.any_eq_true] at fine
    obtain ⟨filled, fine⟩ := fine
    obtain rfl := Option.some.inj h
    constructor
    · intro none
      -- No text at all is joined from one empty label only.
      refine filled (List.isEmpty_iff.2 ?_)
      have whole : ['.'].intercalate ((decoded.map toSmall).splitOn '.') = decoded.map toSmall :=
        List.intercalate_splitOn '.'
      rw [← whole]
      cases e : (decoded.map toSmall).splitOn '.' with
      | nil => rfl
      | cons label labels =>
        rw [e] at none
        cases labels with
        | nil =>
          rw [List.map_singleton, List.intercalate_singleton] at none
          rw [asciiLabel_eq_nil none, List.intercalate_singleton]
        | cons next labels =>
          rw [List.map_cons, List.map_cons, List.intercalate_cons_cons] at none
          simp at none
    · have ascii : ∀ c ∈ decoded.map toSmall, c.toNat < 0x80 → isDomainChar c = true := by
        intro c hc small
        obtain ⟨d, hd, rfl⟩ := List.mem_map.1 hc
        have allowed := mt (fun e : isForbidden (toSmall d) = true =>
          (⟨_, hc, by rw [e, Bool.true_or]⟩ :
            ∃ x ∈ decoded.map toSmall, (isForbidden x || isNeverInDomain x) = true)) fine
        exact isDomainChar_iff.2 ⟨small, toLower_toSmall small, Bool.not_eq_true _ ▸ allowed⟩
      have point : isDomainChar '.' = true := by decide
      refine Text.forall_mem_intercalate (List.forall_mem_singleton.2 point) fun label hl => ?_
      obtain ⟨piece, hp, rfl⟩ := List.mem_map.1 hl
      exact isDomainChar_asciiLabel fun c hc =>
        ascii c ((Text.infix_of_mem_splitOn hp).subset hc)

/-- A domain in normal form is read as it is. -/
theorem domain?_eq_self {domain : List Char} (hne : domain ≠ [])
    (h : ∀ c ∈ domain, isDomainChar c = true) : domain? domain = some domain := by
  have chars := fun c hc => isDomainChar_iff.1 (h c hc)
  have plain : 0x25 ∉ Text.Utf8.encodeChars domain := by
    intro hb
    obtain ⟨c, hc, hb⟩ := List.mem_flatMap.1 hb
    rw [Text.Utf8.encodeChar, if_pos (chars c hc).1, List.mem_singleton] at hb
    have value := congrArg UInt8.toNat hb
    rw [Text.Utf8.toNat_byte (by have := (chars c hc).1; omega)] at value
    have percent : c = '%' := Char.toNat_inj.1 value.symm
    have := (chars c hc).2.2
    rw [percent] at this
    cases this
  have small : domain.map toSmall = domain := by
    refine (List.map_congr_left fun c hc => ?_).trans (List.map_id domain)
    rw [toSmall_of_lt (chars c hc).1, (chars c hc).2.1]
    rfl
  have allowed : domain.any (fun c => isForbidden c || isNeverInDomain c) = false := by
    rw [List.any_eq_false]
    intro c hc
    have ascii := (chars c hc).1
    have : isNeverInDomain c = false := by
      simp [isNeverInDomain]
      omega
    rw [(chars c hc).2.2, this]
    decide
  have labels : (domain.splitOn '.').map asciiLabel = domain.splitOn '.' := by
    refine (List.map_congr_left fun label hl => ?_).trans (List.map_id _)
    refine if_pos (List.all_eq_true.2 fun c hc => decide_eq_true ?_)
    exact (chars c ((Text.infix_of_mem_splitOn hl).subset hc)).1
  rw [domain?]
  simp only [Text.percentDecode_eq_self plain, Text.Utf8.decodeChars_encodeChars, small, allowed,
    labels, List.intercalate_splitOn, List.isEmpty_eq_false_iff.2 hne]
  rfl

end Host

end MapGate.Url
