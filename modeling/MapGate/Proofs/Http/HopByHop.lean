import MapGate.Proofs.Http.Headers
import MapGate.Proofs.Text.LetterCase
import MapGate.Proofs.Text.Pieces

/-!
# What is left of the headers of a connection

A `Connection` header lists names between commas, in any case and with blanks around
them (`ListsName`). Of values that can be read, all names are found (`mem_namesIn`), so that
no header stays that such a value lists, and the others stay as they are
(`values_withoutHopByHop`). A value with one byte beyond ASCII is not read at all: what
it lists stays, unless it goes for another reason (`withoutHopByHop_exact`).
-/

namespace MapGate

/-! ## Names -/

/-- A text stands for a header name that it spells in any case. -/
theorem HeaderName.ofText?_eq_some_iff {s : String} {name : HeaderName} :
    ofText? s = some name ↔ Text.lower s = name.text := by
  rw [ofText?]
  constructor
  · intro h
    split at h
    · cases h; rfl
    · cases h
  · intro h
    obtain ⟨text, isToken, lower_text⟩ := name
    obtain rfl : Text.lower s = text := h
    exact dif_pos ⟨isToken, lower_text⟩

namespace Http

/-- The characters of a value, one for each byte. -/
def chars (value : ByteArray) : List Char := value.toList.map fun b => Char.ofNat b.toNat

/-- All bytes of a value are visible ASCII characters, spaces or tabs. -/
def IsVisible (value : ByteArray) : Prop :=
  ∀ b ∈ value.toList, (0x20 ≤ b ∧ b < 0x7F) ∨ b = 0x09

/-- Only a value of visible characters has a text, which has a character for each byte. -/
theorem visibleText?_eq_some_iff {value : ByteArray} {text : String} :
    visibleText? value = some text ↔ IsVisible value ∧ text = String.ofList (chars value) := by
  have visible : (value.toList.all fun b => (0x20 ≤ b && b < 0x7F) || b = 0x09) = true ↔
      IsVisible value := by
    simp [List.all_eq_true, IsVisible]
  rw [visibleText?]
  split
  · rename_i h
    rw [Option.some_inj, and_iff_right (visible.1 h), eq_comm, chars]
  · rename_i h
    exact iff_of_false (nomatch ·) fun both => h (visible.2 both.1)

theorem toNat_of_mem_chars {value : ByteArray} {c : Char} (visible : IsVisible value)
    (h : c ∈ chars value) : (0x20 ≤ c.toNat ∧ c.toNat < 0x7F) ∨ c.toNat = 0x09 := by
  obtain ⟨b, hb, rfl⟩ := List.mem_map.1 h
  have small : b.toNat < 0xD800 := Nat.lt_trans b.toNat_lt (by decide)
  have same : (Char.ofNat b.toNat).toNat = b.toNat := by
    rw [Char.ofNat, dif_pos (.inl small)]
    rfl
  rw [same]
  rcases visible b hb with ⟨low, high⟩ | tab
  · exact .inl ⟨low, high⟩
  · exact .inr (congrArg UInt8.toNat tab)

/-- A token is made of visible characters. -/
theorem toNat_of_isTokenChar {c : Char} (h : isTokenChar c = true) :
    0x21 ≤ c.toNat ∧ c.toNat ≤ 0x7E := by
  rw [isTokenChar, Bool.or_eq_true, Bool.or_eq_true, List.contains_iff_mem] at h
  rcases h with (word | mark) | quote
  · have ranges : (decide (65 ≤ c.val ∧ c.val ≤ 90) || 97 ≤ c.val && c.val ≤ 122 ||
        48 ≤ c.val && c.val ≤ 57) = true := word
    simp only [Bool.or_eq_true, Bool.and_eq_true, decide_eq_true_eq, UInt32.le_iff_toNat_le]
      at ranges
    change ((65 ≤ c.toNat ∧ c.toNat ≤ 90) ∨ (97 ≤ c.toNat ∧ c.toNat ≤ 122)) ∨
      (48 ≤ c.toNat ∧ c.toNat ≤ 57) at ranges
    omega
  · have all : ("!#$%&'*+-.^_|~".toList.all fun d => 0x21 ≤ d.toNat && d.toNat ≤ 0x7E) = true := by
      decide
    simpa using List.all_eq_true.1 all c mark
  · rw [beq_iff_eq.1 quote]
    decide

/-- No letter of a token is a blank, in whatever case it is written. -/
theorem isBlank_of_isTokenChar {c : Char} (h : isTokenChar c.toLower = true) :
    Text.isBlank c = false := by
  rw [Bool.eq_false_iff]
  intro blank
  simp only [Text.isBlank, Bool.or_eq_true, Bool.and_eq_true, decide_eq_true_eq, beq_iff_eq]
    at blank
  have small : ¬ (65 ≤ c.val ∧ c.val ≤ 90) := by
    rw [UInt32.le_iff_toNat_le, UInt32.le_iff_toNat_le]
    change ¬ (65 ≤ c.toNat ∧ c.toNat ≤ 90)
    omega
  have same : c.toLower = c := Char.ext (by rw [Text.val_toLower, if_neg small])
  have visible := toNat_of_isTokenChar h
  rw [same] at visible
  omega

/-- A value is a list between commas, and one of its elements is the name of a header, in
any case and with spaces and tabs around it. -/
def ListsName (value : ByteArray) (name : HeaderName) : Prop :=
  ∃ element ∈ (chars value).splitOn ',', ∃ front word back, element = front ++ word ++ back ∧
    (∀ c ∈ front ++ back, c = ' ' ∨ c = '\t') ∧ word.map Char.toLower = name.text.toList

theorem eq_of_isBlank {c : Char} (blank : Text.isBlank c = true)
    (visible : (0x20 ≤ c.toNat ∧ c.toNat < 0x7F) ∨ c.toNat = 0x09) : c = ' ' ∨ c = '\t' := by
  simp only [Text.isBlank, Bool.or_eq_true, Bool.and_eq_true, decide_eq_true_eq, beq_iff_eq]
    at blank
  have either : c.toNat = 0x20 ∨ c.toNat = 0x09 := by omega
  exact either.imp (fun h => Char.toNat_inj.1 h) fun h => Char.toNat_inj.1 h

/-- Trimming an element of a list leaves the name in it, which has no blanks. -/
theorem trimChars_eq_iff {element : List Char} {name : HeaderName}
    (visible : ∀ c ∈ element, (0x20 ≤ c.toNat ∧ c.toNat < 0x7F) ∨ c.toNat = 0x09) :
    (Text.trimChars element).map Char.toLower = name.text.toList ↔
      ∃ front word back, element = front ++ word ++ back ∧
        (∀ c ∈ front ++ back, c = ' ' ∨ c = '\t') ∧ word.map Char.toLower = name.text.toList := by
  constructor
  · intro h
    obtain ⟨front, back, e, hf, hb⟩ := Text.exists_eq_append_trimChars element
    refine ⟨front, _, back, e, fun c hc => ?_, h⟩
    rcases List.mem_append.1 hc with hc | hc
    · exact eq_of_isBlank (hf c hc) (visible c (by rw [e]; simp [hc]))
    · exact eq_of_isBlank (hb c hc) (visible c (by rw [e]; simp [hc]))
  · rintro ⟨front, word, back, rfl, blanks, h⟩
    have blank : ∀ c ∈ front ++ back, Text.isBlank c = true := fun c hc => by
      rcases blanks c hc with rfl | rfl <;> decide
    obtain ⟨hf, hb⟩ := List.forall_mem_append.1 blank
    have solid : ∀ c ∈ word, Text.isBlank c = false := by
      intro c hc
      have tokens := (Bool.and_eq_true_iff.1 name.isToken).2
      rw [List.all_eq_true, ← h] at tokens
      exact isBlank_of_isTokenChar (tokens _ (List.mem_map_of_mem hc))
    rw [Text.trimChars_append_append hf hb, Text.trimChars_eq_self
      (fun c hc => solid c (List.mem_of_head? hc)) fun c hc => solid c (List.mem_of_getLast? hc), h]

end Http

namespace Headers

open Http

variable {headers : Headers} {name : HeaderName} {value : ByteArray}

theorem mem_namesIn : name ∈ namesIn value ↔ IsVisible value ∧ ListsName value name := by
  by_cases visible : IsVisible value
  · have text := visibleText?_eq_some_iff.2 ⟨visible, rfl⟩
    rw [namesIn, text, and_iff_right visible]
    simp only [Text.splitOn, String.toList_ofList, List.mem_filterMap, List.mem_map,
      exists_exists_and_eq_and, HeaderName.ofText?_eq_some_iff, ListsName]
    refine exists_congr fun element => and_congr_right fun mem => ?_
    have within : ∀ c ∈ element, (0x20 ≤ c.toNat ∧ c.toNat < 0x7F) ∨ c.toNat = 0x09 := fun c hc =>
      toNat_of_mem_chars visible ((Text.infix_of_mem_splitOn mem).subset hc)
    rw [← trimChars_eq_iff within, ← String.toList_inj, Text.lower, String.toList_ofList,
      Text.toList_trim, String.toList_ofList]
  · have none : visibleText? value = none :=
      Option.eq_none_iff_forall_ne_some.2 fun text h => visible (visibleText?_eq_some_iff.1 h).1
    rw [namesIn, none]
    exact iff_of_false List.not_mem_nil fun both => visible both.1

/-- A header is one of those that are always about a connection, or some `Connection`
header lists it. -/
def IsScoped (headers : Headers) (name : HeaderName) : Prop :=
  name ∈ hopByHopNames ∨ ∃ value ∈ headers.values .connection, ListsName value name

/-- A header is one of those that are always about a connection, or some `Connection`
header that can be read lists it. -/
def IsKnownScoped (headers : Headers) (name : HeaderName) : Prop :=
  name ∈ hopByHopNames ∨
    ∃ value ∈ headers.values .connection, IsVisible value ∧ ListsName value name

theorem mem_connectionNames_append :
    name ∈ headers.connectionNames ++ hopByHopNames ↔ headers.IsKnownScoped name := by
  rw [List.mem_append, or_comm, connectionNames, List.mem_flatMap, IsKnownScoped]
  simp only [mem_namesIn]

/-- Leaving out headers by their names leaves the values of the others as they are. -/
theorem values_filter (keeps : HeaderName → Bool) :
    values ⟨headers.entries.filter fun entry => keeps entry.1⟩ name =
      if keeps name then headers.values name else [] := by
  rw [values, List.filter_filter]
  split
  · rename_i kept
    refine congrArg (List.map _) (List.filter_congr fun entry _ => ?_)
    by_cases same : entry.1 = name
    · rw [same, kept, Bool.and_true]
    · simp [same]
  · rename_i dropped
    rw [List.filter_eq_nil_iff.2, List.map_nil]
    intro entry _ h
    obtain ⟨same, kept⟩ := Bool.and_eq_true_iff.1 h
    exact dropped (of_decide_eq_true same ▸ kept)

/-- Headers that are known to be about the connection are gone, the others keep their
values in their order. -/
theorem values_withoutHopByHop (headers : Headers) (name : HeaderName) :
    (headers.IsKnownScoped name → headers.withoutHopByHop.values name = []) ∧
      (¬ headers.IsKnownScoped name →
        headers.withoutHopByHop.values name = headers.values name) := by
  have cut : headers.withoutHopByHop.values name =
      if !(headers.connectionNames ++ hopByHopNames).contains name then headers.values name
      else [] :=
    values_filter fun name => !(headers.connectionNames ++ hopByHopNames).contains name
  rw [cut, ← mem_connectionNames_append, ← List.contains_iff_mem]
  constructor
  · intro known
    rw [known]
    rfl
  · intro unknown
    rw [eq_false_of_ne_true unknown]
    rfl

/-- No `Connection` header is left that could list anything. -/
theorem connectionNames_withoutHopByHop (headers : Headers) :
    headers.withoutHopByHop.connectionNames = [] := by
  have known : headers.IsKnownScoped .connection := .inl List.mem_cons_self
  rw [connectionNames, (values_withoutHopByHop headers .connection).1 known, List.flatMap_nil]

theorem withoutHopByHop_withoutHopByHop (headers : Headers) :
    headers.withoutHopByHop.withoutHopByHop = headers.withoutHopByHop := by
  have stays : ∀ entry ∈ headers.withoutHopByHop.entries,
      (!(headers.withoutHopByHop.connectionNames ++ hopByHopNames).contains entry.1) = true := by
    intro entry he
    obtain ⟨-, -, lasting⟩ := mem_withoutHopByHop.1 he
    rw [connectionNames_withoutHopByHop]
    simpa using lasting
  rw [withoutHopByHop]
  exact congrArg Headers.mk (List.filter_eq_self.2 stays)

/-- What is known to be about the connection is removed, all other headers keep their
values in their order, and doing it again changes nothing. No header that a `Connection`
header lists is left exactly if each one that only a value beyond visible ASCII lists is
missing anyway or goes for another reason. -/
theorem withoutHopByHop_exact (headers : Headers) :
    (∀ name, headers.IsKnownScoped name → headers.withoutHopByHop.values name = []) ∧
    (∀ name, ¬ headers.IsKnownScoped name →
      headers.withoutHopByHop.values name = headers.values name) ∧
    headers.withoutHopByHop.withoutHopByHop = headers.withoutHopByHop ∧
    ((∀ name, headers.IsScoped name → headers.withoutHopByHop.values name = []) ↔
      ∀ value ∈ headers.values .connection, ¬ IsVisible value →
        ∀ name, ListsName value name → headers.values name = [] ∨ headers.IsKnownScoped name) := by
  have removed := fun name => (values_withoutHopByHop headers name).1
  have kept := fun name => (values_withoutHopByHop headers name).2
  refine ⟨removed, kept, withoutHopByHop_withoutHopByHop headers, ?_, ?_⟩
  · intro none value hv _ name lists
    by_cases known : headers.IsKnownScoped name
    · exact .inr known
    · exact .inl ((kept name known).symm.trans (none name (.inr ⟨value, hv, lists⟩)))
  · intro accounted name isScoped
    by_cases known : headers.IsKnownScoped name
    · exact removed name known
    · obtain fixed | ⟨value, hv, lists⟩ := isScoped
      · exact absurd (.inl fixed) known
      · have unread : ¬ IsVisible value := fun visible => known (.inr ⟨value, hv, visible, lists⟩)
        rw [kept name known]
        exact (accounted value hv unread name lists).resolve_right known

/-- A header that a connection may list. -/
def session : HeaderName := ⟨"x-session", by decide, by decide⟩

/-- Headers of a connection that lists some. -/
def ofSession (listed : ByteArray) : Headers :=
  ⟨[(.connection, "close".toUTF8), (.connection, listed), (session, "1".toUTF8),
    (.accept, "image/png".toUTF8), (.accept, "text/*".toUTF8)]⟩

/-- Neither an empty element nor one that is no name is in the way of the others. -/
theorem withoutHopByHop_exact_session :
    let headers := ofSession "te , ,?=, X-Session ".toUTF8
    headers.IsKnownScoped session ∧ headers.withoutHopByHop.values session = [] ∧
      ¬ headers.IsKnownScoped .accept ∧
      headers.withoutHopByHop.values .accept = ["image/png".toUTF8, "text/*".toUTF8] ∧
      ∀ name, headers.IsScoped name → headers.withoutHopByHop.values name = [] := by
  intro headers
  obtain ⟨removed, kept, -, accounted⟩ := withoutHopByHop_exact headers
  have known : headers.IsKnownScoped session := mem_connectionNames_append.1 (by decide +kernel)
  have other : ¬ headers.IsKnownScoped .accept :=
    mt mem_connectionNames_append.2 (by decide +kernel)
  have visible : ∀ value ∈ headers.values .connection, (visibleText? value).isSome = true := by
    decide +kernel
  refine ⟨known, removed session known, other, (kept .accept other).trans (by decide +kernel),
    accounted.2 fun value hv unread => ?_⟩
  obtain ⟨text, read⟩ := Option.isSome_iff_exists.1 (visible value hv)
  exact absurd (visibleText?_eq_some_iff.1 read).1 unread

/-- One byte beyond ASCII in the list saves the header that stands in front of it. -/
theorem exists_listed_left : ¬ ∀ headers : Headers,
    (∀ entry ∈ headers.entries, isHeaderValue entry.2 = true) →
    (∀ name, headers.IsScoped name → headers.withoutHopByHop.values name = []) ∧
    (∀ name, ¬ headers.IsScoped name →
      headers.withoutHopByHop.values name = headers.values name) ∧
    headers.withoutHopByHop.withoutHopByHop = headers.withoutHopByHop := by
  intro all
  let listed : ByteArray := "x-session, ".toUTF8 ++ ⟨#[0xE9]⟩
  have values : ∀ entry ∈ (ofSession listed).entries, isHeaderValue entry.2 = true := by
    decide +kernel
  have elements : (chars listed).splitOn ',' = ["x-session".toList, " é".toList] := by
    decide +kernel
  have lists : ListsName listed session :=
    ⟨"x-session".toList, by rw [elements]; exact List.mem_cons_self, [], "x-session".toList, [],
      rfl, List.forall_mem_nil _, by decide⟩
  have both : (ofSession listed).values .connection = ["close".toUTF8, listed] := by
    decide +kernel
  have member : listed ∈ (ofSession listed).values .connection := by
    rw [both]
    exact List.mem_cons_of_mem _ List.mem_cons_self
  have none := (all (ofSession listed) values).1 session (.inr ⟨listed, member, lists⟩)
  have left : (ofSession listed).withoutHopByHop.values session = ["1".toUTF8] := by
    decide +kernel
  exact absurd (left.symm.trans none) (List.cons_ne_nil _ _)

end Headers

end MapGate
