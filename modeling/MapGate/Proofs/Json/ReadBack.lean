import Mathlib.Data.List.TakeDrop
import MapGate.Proofs.Json.Strings

/-!
# JSON values read back

A value whose numbers are whole and have 64 bits (`Json.IsWhole`) is read back from its
text (`ofText?_render`). Each part of a text is read up to where it ends, whatever follows
(`readValue?_render`, `readItems?_render`, `readMembers?_render`, by induction on the
value); a number ends where no digit, point or exponent follows.

The text is on one line (`le_of_mem_renderChars`).
-/

namespace MapGate.Json

mutual

/-- All numbers in a value are whole and have 64 bits. -/
def IsWhole : Json → Prop
  | integer n => -Nat.pow 2 63 ≤ n ∧ n ≤ maxWord
  | decimal _ _ => False
  | array items => AreWhole items
  | object members => MembersAreWhole members
  | _ => True

/-- All numbers in some values are whole and have 64 bits. -/
def AreWhole : List Json → Prop
  | [] => True
  | value :: values => value.IsWhole ∧ AreWhole values

/-- All numbers in the values of some members are whole and have 64 bits. -/
def MembersAreWhole : List (String × Json) → Prop
  | [] => True
  | (_, value) :: members => value.IsWhole ∧ MembersAreWhole members

end

theorem membersAreWhole_iff {members : List (String × Json)} :
    MembersAreWhole members ↔ ∀ member ∈ members, member.2.IsWhole := by
  induction members with
  | nil => simp [MembersAreWhole]
  | cons member members ih => rw [MembersAreWhole, ih, List.forall_mem_cons]

variable {fuel : Nat} {rest : List Char}

/-! ## Numbers -/

/-- A text does not go on like a number. -/
def NoNumberAhead (l : List Char) : Prop :=
  Text.NoDigitAhead l ∧ ∀ c, l.head? = some c → c ≠ '.' ∧ c ≠ 'e' ∧ c ≠ 'E'

theorem noNumberAhead_nil : NoNumberAhead [] := ⟨nofun, nofun⟩

theorem noNumberAhead_cons {c : Char} {l : List Char} (digit : c.isDigit = false)
    (other : c ≠ '.' ∧ c ≠ 'e' ∧ c ≠ 'E') : NoNumberAhead (c :: l) := by
  refine ⟨Text.noDigitAhead_cons digit, fun d hd => ?_⟩
  cases hd
  exact other

theorem readFraction?_of_noNumberAhead (stop : NoNumberAhead rest) :
    readFraction? rest = some (none, rest) := by
  rw [readFraction?]
  rintro _ rfl
  exact absurd rfl (stop.2 '.' rfl).1

theorem readExponent?_of_noNumberAhead (stop : NoNumberAhead rest) :
    readExponent? rest = some (none, rest) := by
  cases rest with
  | nil => rfl
  | cons c rest =>
    obtain ⟨-, small, capital⟩ := stop.2 c rfl
    unfold readExponent?
    dsimp only
    rw [if_neg (by simp [small, capital])]

theorem spanDigits_toDigits (n : Nat) (stop : NoNumberAhead rest) :
    spanDigits (Nat.toDigits 10 n ++ rest) = (Nat.toDigits 10 n, rest) := by
  rw [spanDigits, List.span_eq_takeWhile_dropWhile,
    Text.takeWhile_digits (Text.isDigit_toDigits n) stop.1,
    Text.dropWhile_digits (Text.isDigit_toDigits n) stop.1]

theorem plain_toDigits (n : Nat) : ¬ ((Nat.toDigits 10 n).isEmpty ∨
    (Nat.toDigits 10 n).head? = some '0' ∧ Nat.toDigits 10 n ≠ ['0']) := by
  rintro (none | ⟨zero, more⟩)
  · exact Nat.toDigits_ne_nil (List.isEmpty_iff.1 none)
  · rw [Text.head?_toDigits n zero] at more
    exact more rfl

/-- The digits of a number are no sign. -/
theorem toDigits_append_ne (n : Nat) (l : List Char) : Nat.toDigits 10 n ++ rest ≠ '-' :: l := by
  intro minus
  cases e : Nat.toDigits 10 n with
  | nil => exact Nat.toDigits_ne_nil e
  | cons d digits =>
    rw [e, List.cons_append] at minus
    obtain ⟨rfl, -⟩ := List.cons.inj minus
    have digit := Text.isDigit_toDigits n '-' (e ▸ List.mem_cons_self)
    cases digit

/-- The digits of a number are read as they were written, with or without a sign. -/
theorem readLiteral?_toDigits (isNegative : Bool) (n : Nat) (stop : NoNumberAhead rest) :
    readLiteral? ((if isNegative then ['-'] else []) ++ (Nat.toDigits 10 n ++ rest)) =
      some (⟨isNegative, Nat.toDigits 10 n, [], 0, true⟩, rest) := by
  unfold readLiteral?
  split
  rename_i negative l sign
  have signed : (negative, l) = (isNegative, Nat.toDigits 10 n ++ rest) := by
    rw [← sign]
    cases isNegative with
    | true => rfl
    | false =>
      split
      · rename_i minus
        exact absurd minus (toDigits_append_ne n _)
      · rfl
  obtain ⟨rfl, rfl⟩ := Prod.mk.inj signed
  rw [spanDigits_toDigits n stop]
  dsimp only
  rw [if_neg (plain_toDigits n), readFraction?_of_noNumberAhead stop]
  dsimp only [Option.bind_eq_bind, Option.bind_some]
  rw [readExponent?_of_noNumberAhead stop]
  rfl

/-- A whole number of 64 bits is kept exactly. -/
theorem value?_toDigits {n : Int} (low : -Nat.pow 2 63 ≤ n) (high : n ≤ maxWord) :
    Literal.value? ⟨decide (n < 0), Nat.toDigits 10 n.natAbs, [], 0, true⟩ = some (integer n) := by
  rw [Literal.value?]
  dsimp only
  rw [Nat.ofDigitChars_ten_toDigits]
  by_cases negative : n < 0
  · have few : n.natAbs ≤ Nat.pow 2 63 := by omega
    rw [if_neg (by simp [negative]), if_pos ⟨rfl, decide_eq_true negative, by omega, few⟩]
    congr 2
    omega
  · rw [if_pos (by simp [negative]; omega)]
    congr 2
    omega

theorem readNumber?_renderInteger {n : Int} (low : -Nat.pow 2 63 ≤ n) (high : n ≤ maxWord)
    (stop : NoNumberAhead rest) :
    readNumber? (renderInteger n ++ rest) = some (integer n, rest) := by
  have written : renderInteger n ++ rest =
      (if decide (n < 0) then ['-'] else []) ++ (Nat.toDigits 10 n.natAbs ++ rest) := by
    rw [renderInteger]
    by_cases negative : n < 0 <;> simp [negative]
  rw [written, readNumber?, readLiteral?_toDigits _ _ stop]
  dsimp only [Option.bind_eq_bind, Option.bind_some]
  rw [value?_toDigits low high]
  rfl

/-! ## What values start with -/

theorem skipSpace_cons {c : Char} (h : isSpace c = false) (l : List Char) :
    skipSpace (c :: l) = c :: l :=
  List.dropWhile_cons_of_neg (by simp [h])

/-- A character that a number starts with. -/
def StartsNumber (c : Char) : Prop := c.isDigit = true ∨ c = '-'

theorem exists_renderInteger (n : Int) : ∃ c l, renderInteger n = c :: l ∧ StartsNumber c := by
  rw [renderInteger]
  split
  · exact ⟨_, _, rfl, .inr rfl⟩
  · cases e : Nat.toDigits 10 n.natAbs with
    | nil => exact absurd e Nat.toDigits_ne_nil
    | cons d l => exact ⟨d, l, rfl, .inl (Text.isDigit_toDigits _ d (e ▸ List.mem_cons_self))⟩

theorem StartsNumber.ne {c d : Char} (h : StartsNumber c)
    (other : d.isDigit = false ∧ d ≠ '-') : c ≠ d := by
  rintro rfl
  rcases h with h | h
  · exact absurd (h.symm.trans other.1) (by decide)
  · exact other.2 h

theorem StartsNumber.isSpace {c : Char} (h : StartsNumber c) : isSpace c = false := by
  simp only [Json.isSpace, Bool.or_eq_false_iff, beq_eq_false_iff_ne]
  exact ⟨⟨⟨h.ne (by decide), h.ne (by decide)⟩, h.ne (by decide)⟩, h.ne (by decide)⟩

theorem readValue?_of_startsNumber {c : Char} (h : StartsNumber c) (l : List Char) :
    readValue? (fuel + 1) (c :: l) = readNumber? (c :: l) := by
  rw [readValue?, skipSpace_cons h.isSpace]
  split
  all_goals first
    | rfl
    | rename_i e
      exact absurd (List.cons.inj e).1 (h.ne (by decide))

/-- A text starts with no blank and does not end an array or an object. -/
def StartsPart (l : List Char) : Prop :=
  ∃ c rest, l = c :: rest ∧ isSpace c = false ∧ c ≠ ']' ∧ c ≠ '\x7d'

theorem StartsPart.append {l : List Char} (h : StartsPart l) (rest : List Char) :
    StartsPart (l ++ rest) := by
  obtain ⟨c, l, rfl, h⟩ := h
  exact ⟨c, l ++ rest, rfl, h⟩

theorem StartsPart.skipSpace {l : List Char} (h : StartsPart l) : skipSpace l = l := by
  obtain ⟨c, l, rfl, blank, -⟩ := h
  exact skipSpace_cons blank l

theorem startsPart_renderString (s : String) : StartsPart (renderString s) :=
  ⟨_, _, rfl, by decide⟩

theorem startsPart_renderChars {value : Json} (whole : value.IsWhole) :
    StartsPart value.renderChars := by
  match value with
  | null => exact ⟨_, _, rfl, by decide⟩
  | bool true => exact ⟨_, _, rfl, by decide⟩
  | bool false => exact ⟨_, _, rfl, by decide⟩
  | integer n =>
    obtain ⟨c, l, written, starts⟩ := exists_renderInteger n
    exact ⟨c, l, written, starts.isSpace, starts.ne (by decide), starts.ne (by decide)⟩
  | decimal _ _ => exact whole.elim
  | string s => exact startsPart_renderString s
  | array [] => exact ⟨_, _, rfl, by decide⟩
  | array (_ :: _) => exact ⟨_, _, rfl, by decide⟩
  | object [] => exact ⟨_, _, rfl, by decide⟩
  | object (_ :: _) => exact ⟨_, _, rfl, by decide⟩

/-- What follows a value in an array or an object does not go on like a number. -/
theorem noNumberAhead_renderItems (values : List Json) (rest : List Char) :
    NoNumberAhead (renderItems values ++ rest) := by
  cases values <;> exact noNumberAhead_cons (by decide) (by decide)

theorem noNumberAhead_renderMembers (members : List (String × Json)) (rest : List Char) :
    NoNumberAhead (renderMembers members ++ rest) := by
  cases members <;> exact noNumberAhead_cons (by decide) (by decide)

/-! ## Steps of reading -/

section

variable {l rest' : List Char} {key : String} {value : Json} {values : List Json}
  {members : List (String × Json)} {member : String × Json}

theorem readValue?_bracket (fuel : Nat) (l : List Char) :
    readValue? (fuel + 1) ('[' :: l) = (match skipSpace l with
      | ']' :: rest => some (array [], rest)
      | rest => do
        let (value, rest) ← readValue? fuel rest
        let (values, rest) ← readItems? fuel rest
        some (array (value :: values), rest)) := by
  rw [readValue?, skipSpace_cons (by decide)]
  rfl

theorem readValue?_brace (fuel : Nat) (l : List Char) :
    readValue? (fuel + 1) ('\x7b' :: l) = (match skipSpace l with
      | '\x7d' :: rest => some (object [], rest)
      | rest => do
        let (member, rest) ← readMember? fuel rest
        let (members, rest) ← readMembers? fuel rest
        some (object (member :: members), rest)) := by
  rw [readValue?, skipSpace_cons (by decide)]
  rfl

theorem readValue?_array (starts : StartsPart l) (first : readValue? fuel l = some (value, rest))
    (others : readItems? fuel rest = some (values, rest')) :
    readValue? (fuel + 1) ('[' :: l) = some (array (value :: values), rest') := by
  rw [readValue?_bracket, starts.skipSpace]
  obtain ⟨c, l, rfl, -, more, -⟩ := starts
  split
  · rename_i e
    exact absurd (List.cons.inj e).1 more
  · simp only [first, others, Option.bind_eq_bind, Option.bind_some]

theorem readValue?_object (starts : StartsPart l)
    (first : readMember? fuel l = some (member, rest))
    (others : readMembers? fuel rest = some (members, rest')) :
    readValue? (fuel + 1) ('\x7b' :: l) = some (object (member :: members), rest') := by
  rw [readValue?_brace, starts.skipSpace]
  obtain ⟨c, l, rfl, -, -, more⟩ := starts
  split
  · rename_i e
    exact absurd (List.cons.inj e).1 more
  · simp only [first, others, Option.bind_eq_bind, Option.bind_some]

theorem readItems?_comma (first : readValue? fuel l = some (value, rest))
    (others : readItems? fuel rest = some (values, rest')) :
    readItems? (fuel + 1) (',' :: l) = some (value :: values, rest') := by
  rw [readItems?, skipSpace_cons (by decide)]
  simp only [first, others, Option.bind_eq_bind, Option.bind_some]

theorem readMembers?_comma (first : readMember? fuel l = some (member, rest))
    (others : readMembers? fuel rest = some (members, rest')) :
    readMembers? (fuel + 1) (',' :: l) = some (member :: members, rest') := by
  rw [readMembers?, skipSpace_cons (by decide)]
  simp only [first, others, Option.bind_eq_bind, Option.bind_some]

theorem readMember?_key (read : readValue? fuel l = some (value, rest)) :
    readMember? (fuel + 1) (renderString key ++ ':' :: l) = some ((key, value), rest) := by
  rw [readMember?, ((startsPart_renderString key).append _).skipSpace, readString?_renderString]
  simp only [Option.bind_eq_bind, Option.bind_some, skipSpace_cons (show isSpace ':' = false by decide),
    read]

end

/-! ## Values -/

/-- A key and its value as they are written. -/
def renderMember (key : String) (value : Json) : List Char :=
  renderString key ++ ':' :: value.renderChars

mutual

/-- A written value is read back, up to what follows. -/
theorem readValue?_render : ∀ (value : Json) (fuel : Nat) (rest : List Char), value.IsWhole →
    value.renderChars.length ≤ fuel → NoNumberAhead rest →
    readValue? fuel (value.renderChars ++ rest) = some (value, rest)
  | null, fuel + 1, rest, _, _, _ => by
    rw [readValue?]
    rfl
  | bool true, fuel + 1, rest, _, _, _ => by
    rw [readValue?]
    rfl
  | bool false, fuel + 1, rest, _, _, _ => by
    rw [readValue?]
    rfl
  | integer n, fuel + 1, rest, whole, _, stop => by
    obtain ⟨low, high⟩ := whole
    obtain ⟨c, l, written, starts⟩ := exists_renderInteger n
    have read := readNumber?_renderInteger low high stop
    rw [written, List.cons_append] at read
    rw [renderChars, written, List.cons_append, readValue?_of_startsNumber starts, read]
  | string s, fuel + 1, rest, _, _, _ => by
    rw [renderChars, readValue?, ((startsPart_renderString s).append rest).skipSpace]
    show (readString? (renderString s ++ rest)).map _ = _
    rw [readString?_renderString]
    rfl
  | array [], fuel + 1, rest, _, _, _ => by
    rw [readValue?]
    rfl
  | array (value :: values), fuel + 1, rest, whole, enough, stop => by
    simp only [renderChars, List.length_append, List.length_cons] at enough
    have first := readValue?_render value fuel (renderItems values ++ rest) whole.1 (by omega)
      (noNumberAhead_renderItems values rest)
    have others := readItems?_render values fuel rest whole.2 (by omega)
    rw [renderChars, List.append_assoc, List.cons_append,
      readValue?_array ((startsPart_renderChars whole.1).append _) first others]
  | object [], fuel + 1, rest, _, _, _ => by
    rw [readValue?]
    rfl
  | object ((key, value) :: members), fuel + 1, rest, whole, enough, stop => by
    simp only [renderChars, List.length_append, List.length_cons] at enough
    have first := readMember?_render key value fuel (renderMembers members ++ rest) whole.1
      (by simp only [renderMember, List.length_append, List.length_cons]; omega)
      (noNumberAhead_renderMembers members rest)
    have others := readMembers?_render members fuel rest whole.2 (by omega)
    have written : (object ((key, value) :: members)).renderChars ++ rest =
        '\x7b' :: (renderMember key value ++ (renderMembers members ++ rest)) := by
      simp only [renderChars, renderMember, List.append_assoc, List.cons_append]
    have starts : StartsPart (renderMember key value) := (startsPart_renderString key).append _
    rw [written, readValue?_object (starts.append _) first others]
  | value, 0, rest, whole, enough, _ => by
    obtain ⟨c, l, written, -⟩ := startsPart_renderChars whole
    rw [written] at enough
    cases enough

theorem readMember?_render (key : String) (value : Json) : ∀ (fuel : Nat) (rest : List Char),
    value.IsWhole → (renderMember key value).length ≤ fuel → NoNumberAhead rest →
    readMember? fuel (renderMember key value ++ rest) = some ((key, value), rest)
  | fuel + 1, rest, whole, enough, stop => by
    simp only [renderMember, List.length_append, List.length_cons] at enough
    rw [renderMember, List.append_assoc, List.cons_append,
      readMember?_key (readValue?_render value fuel rest whole (by omega) stop)]
  | 0, rest, _, enough, _ => by
    simp [renderMember] at enough

theorem readItems?_render : ∀ (values : List Json) (fuel : Nat) (rest : List Char),
    AreWhole values → (renderItems values).length ≤ fuel →
    readItems? fuel (renderItems values ++ rest) = some (values, rest)
  | [], fuel + 1, rest, _, _ => by
    rw [readItems?]
    rfl
  | value :: values, fuel + 1, rest, whole, enough => by
    simp only [renderItems, List.length_append, List.length_cons] at enough
    have first := readValue?_render value fuel (renderItems values ++ rest) whole.1 (by omega)
      (noNumberAhead_renderItems values rest)
    have others := readItems?_render values fuel rest whole.2 (by omega)
    rw [renderItems, List.append_assoc, List.cons_append, readItems?_comma first others]
  | [], 0, rest, _, enough => by cases enough
  | value :: values, 0, rest, _, enough => by cases enough

theorem readMembers?_render : ∀ (members : List (String × Json)) (fuel : Nat) (rest : List Char),
    MembersAreWhole members → (renderMembers members).length ≤ fuel →
    readMembers? fuel (renderMembers members ++ rest) = some (members, rest)
  | [], fuel + 1, rest, _, _ => by
    rw [readMembers?]
    rfl
  | (key, value) :: members, fuel + 1, rest, whole, enough => by
    simp only [renderMembers, List.length_append, List.length_cons] at enough
    have first := readMember?_render key value fuel (renderMembers members ++ rest) whole.1
      (by simp only [renderMember, List.length_append, List.length_cons]; omega)
      (noNumberAhead_renderMembers members rest)
    have others := readMembers?_render members fuel rest whole.2 (by omega)
    have written : renderMembers ((key, value) :: members) ++ rest =
        ',' :: (renderMember key value ++ (renderMembers members ++ rest)) := by
      simp only [renderMembers, renderMember, List.append_assoc, List.cons_append]
    rw [written, readMembers?_comma first others]
  | [], 0, rest, _, enough => by cases enough
  | (key, value) :: members, 0, rest, _, enough => by cases enough

end

/-- A value without decimal fractions is read back from its text. -/
theorem ofText?_render {value : Json} (whole : value.IsWhole) :
    ofText? value.render = some value := by
  have read := readValue?_render value (2 * value.renderChars.length + 2) [] whole (by omega)
    noNumberAhead_nil
  rw [List.append_nil] at read
  rw [ofText?, render, String.toList_ofList, ofChars?, read]
  rfl

/-! ## Characters -/

theorem le_of_mem_renderInteger {n : Int} : ∀ d ∈ renderInteger n, 0x20 ≤ d.toNat := by
  have digits : ∀ d ∈ Nat.toDigits 10 n.natAbs, 0x20 ≤ d.toNat := fun d hd => by
    have digit := (Char.isDigit_iff_toNat.1 (Text.isDigit_toDigits _ d hd)).1
    have : '0'.toNat = 0x30 := rfl
    omega
  rw [renderInteger]
  split
  · exact List.forall_mem_cons.2 ⟨by decide, digits⟩
  · exact digits

mutual

/-- There are no control characters in a text. -/
theorem le_of_mem_renderChars : ∀ (value : Json), value.IsWhole →
    ∀ d ∈ value.renderChars, 0x20 ≤ d.toNat
  | null, _ => le_of_all rfl
  | bool true, _ => le_of_all rfl
  | bool false, _ => le_of_all rfl
  | integer n, _ => le_of_mem_renderInteger
  | string s, _ => fun _ => le_of_mem_renderString
  | array [], _ => le_of_all rfl
  | array (value :: values), whole => by
    simp only [renderChars, List.forall_mem_append, List.forall_mem_cons]
    exact ⟨⟨by decide, le_of_mem_renderChars value whole.1⟩,
      le_of_mem_renderItems values whole.2⟩
  | object [], _ => le_of_all rfl
  | object ((key, value) :: members), whole => by
    simp only [renderChars, List.forall_mem_append, List.forall_mem_cons]
    exact ⟨⟨⟨by decide, fun _ => le_of_mem_renderString⟩, by decide,
      le_of_mem_renderChars value whole.1⟩, le_of_mem_renderMembers members whole.2⟩

theorem le_of_mem_renderItems : ∀ (values : List Json), AreWhole values →
    ∀ d ∈ renderItems values, 0x20 ≤ d.toNat
  | [], _ => le_of_all rfl
  | value :: values, whole => by
    simp only [renderItems, List.forall_mem_append, List.forall_mem_cons]
    exact ⟨⟨by decide, le_of_mem_renderChars value whole.1⟩,
      le_of_mem_renderItems values whole.2⟩

theorem le_of_mem_renderMembers : ∀ (members : List (String × Json)), MembersAreWhole members →
    ∀ d ∈ renderMembers members, 0x20 ≤ d.toNat
  | [], _ => le_of_all rfl
  | (key, value) :: members, whole => by
    simp only [renderMembers, List.forall_mem_append, List.forall_mem_cons]
    exact ⟨⟨⟨by decide, fun _ => le_of_mem_renderString⟩, by decide,
      le_of_mem_renderChars value whole.1⟩, le_of_mem_renderMembers members whole.2⟩

end

end MapGate.Json
