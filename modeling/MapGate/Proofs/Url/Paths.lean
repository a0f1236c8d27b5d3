import MapGate.Proofs.Text.Percent
import MapGate.Proofs.Text.Pieces
import MapGate.Url.Path

/-!
# Paths read back

The path that is read after a special scheme has a name at least, and all its names are ones
that stay where they are (`Path.isNormal_ofSpecial`): no steps are left when all are taken
(`resolve_normal`). Such a path is read back from its text (`Path.ofSpecial_renderChars`).
-/

namespace MapGate.Url

/-- A name in a path: no step, no separator in it, and nothing that has to be encoded. -/
structure NormalName (name : List Char) : Prop where
  keeps : ∀ c ∈ name, keepsInPath c = true
  whole : ∀ c ∈ name, isSlash true c = false
  dot : isDot name = false
  dotDot : isDotDot name = false

/-- A path as it is read after a special scheme. -/
def Path.IsNormal : Path → Prop
  | segments names => names ≠ [] ∧ ∀ name ∈ names, NormalName name
  | rootless _ => False

theorem normalName_nil : NormalName [] :=
  ⟨List.forall_mem_nil _, List.forall_mem_nil _, by decide, by decide⟩

/-! ## Taking steps -/

theorem mem_of_mem_stepUp {names : List (List Char)} {name : List Char} (h : name ∈ stepUp names) :
    name ∈ names := by
  cases names with
  | nil => exact h
  | cons first names =>
    rw [stepUp] at h
    split at h
    · exact h
    · exact List.mem_cons_of_mem first h

/-- When all steps are taken, the names that are left stay where they are. -/
theorem normalName_resolve {segments passed : List (List Char)}
    (hs : ∀ segment ∈ segments, ∀ c ∈ segment, keepsInPath c = true ∧ isSlash true c = false)
    (hp : ∀ name ∈ passed, NormalName name) :
    ∀ name ∈ resolve passed segments, NormalName name := by
  induction segments generalizing passed with
  | nil => exact fun name hn => hp name (List.mem_reverse.1 hn)
  | cons segment rest ih =>
    obtain ⟨chars, others⟩ := List.forall_mem_cons.1 hs
    have up : ∀ name ∈ stepUp passed, NormalName name := fun name hn =>
      hp name (mem_of_mem_stepUp hn)
    rw [resolve]
    split
    · split
      · exact ih others (List.forall_mem_cons.2 ⟨normalName_nil, up⟩)
      · exact ih others up
    · rename_i dotDot
      split
      · split
        · exact ih others (List.forall_mem_cons.2 ⟨normalName_nil, hp⟩)
        · exact ih others hp
      · rename_i dot
        refine ih others (List.forall_mem_cons.2 ⟨⟨fun c hc => (chars c hc).1,
          fun c hc => (chars c hc).2, ?_, ?_⟩, hp⟩)
        · exact Bool.not_eq_true _ ▸ dot
        · exact Bool.not_eq_true _ ▸ dotDot

/-- A name is left when all steps are taken. -/
theorem resolve_ne_nil {segments passed : List (List Char)} (h : passed ≠ [] ∨ segments ≠ []) :
    resolve passed segments ≠ [] := by
  induction segments generalizing passed with
  | nil =>
    obtain passed | segments := h
    · rwa [resolve, Ne, List.reverse_eq_nil_iff]
    · exact absurd rfl segments
  | cons segment rest ih =>
    have more : rest.isEmpty = false → rest ≠ [] := fun e => by simpa using e
    rw [resolve]
    split
    · split
      · exact ih (.inl (List.cons_ne_nil _ _))
      · rename_i filled
        exact ih (.inr (more (Bool.not_eq_true _ ▸ filled)))
    · split
      · split
        · exact ih (.inl (List.cons_ne_nil _ _))
        · rename_i filled
          exact ih (.inr (more (Bool.not_eq_true _ ▸ filled)))
      · exact ih (.inl (List.cons_ne_nil _ _))

/-- Where no steps are left, none is taken. -/
theorem resolve_normal {names : List (List Char)} (h : ∀ name ∈ names, NormalName name)
    (passed : List (List Char)) : resolve passed names = passed.reverse ++ names := by
  induction names generalizing passed with
  | nil => rw [resolve, List.append_nil]
  | cons name names ih =>
    obtain ⟨hn, others⟩ := List.forall_mem_cons.1 h
    rw [resolve, hn.dotDot, hn.dot, if_neg Bool.false_ne_true, if_neg Bool.false_ne_true,
      ih others, List.reverse_cons, List.append_assoc, List.singleton_append]

/-! ## Reading -/

namespace Path

/-- A path that was read is in normal form. -/
theorem isNormal_ofSpecial (l : List Char) : (ofSpecial false l).IsNormal := by
  have bytes : ∀ b, (Text.percentByte b).all
      (fun c => keepsInPath c && !isSlash true c) = true := Text.forall_byte (by decide +kernel)
  refine ⟨resolve_ne_nil (.inr ?_), normalName_resolve (fun segment hs c hc => ?_)
    (List.forall_mem_nil _)⟩
  · rw [Ne, List.map_eq_nil_iff]
    exact List.splitOnP_ne_nil _ _
  · obtain ⟨raw, hr, rfl⟩ := List.mem_map.1 hs
    have whole := Text.whole_of_mem_splitOnP hr
    have both := Text.forall_mem_percentEncode
      (p := fun c => keepsInPath c && !isSlash true c)
      (fun c hc (keeps : keepsInPath c = true) => by simp [keeps, (whole c hc).1]) bytes c hc
    simpa using both

/-- Names behind slashes are the segments of their text. -/
theorem splitOnP_flatMap {name : List Char} {names : List (List Char)}
    (h : ∀ c ∈ name, isSlash true c = false)
    (hs : ∀ name ∈ names, ∀ c ∈ name, isSlash true c = false) :
    (name ++ names.flatMap ('/' :: ·)).splitOnP (isSlash true) = name :: names := by
  induction names generalizing name with
  | nil => rw [List.flatMap_nil, List.append_nil, List.splitOnP_eq_singleton h]
  | cons next names ih =>
    obtain ⟨hn, others⟩ := List.forall_mem_cons.1 hs
    rw [List.flatMap_cons, List.cons_append,
      List.splitOnP_append_cons_of_forall_mem h '/' (by decide), ih hn others]

/-- A path in normal form is read back from its text. -/
theorem ofSpecial_renderChars {path : Path} (h : path.IsNormal) :
    ofSpecial false path.renderChars = path := by
  cases path with
  | rootless text => exact h.elim
  | segments names =>
    obtain ⟨filled, normal⟩ := h
    cases names with
    | nil => exact absurd rfl filled
    | cons name names =>
      have cut : splitPath true (renderChars (segments (name :: names))) = name :: names := by
        obtain ⟨hn, others⟩ := List.forall_mem_cons.1 normal
        exact splitOnP_flatMap hn.whole fun name hm => (others name hm).whole
      have plain : (name :: names).map (Text.percentEncode keepsInPath) = name :: names :=
        (List.map_congr_left fun name hn => Text.percentEncode_eq_self (normal name hn).keeps).trans
          (List.map_id _)
      rw [ofSpecial, cut, plain, resolve_normal normal]
      rfl

/-- The text of a path in normal form starts with a slash. -/
theorem exists_renderChars_cons {path : Path} (h : path.IsNormal) :
    ∃ l, path.renderChars = '/' :: l := by
  cases path with
  | rootless text => exact h.elim
  | segments names =>
    cases names with
    | nil => exact absurd rfl h.1
    | cons name names => exact ⟨_, rfl⟩

/-- Nothing in the text of a path in normal form has to be encoded. -/
theorem keeps_renderChars {path : Path} (h : path.IsNormal) :
    ∀ c ∈ path.renderChars, keepsInPath c = true := by
  cases path with
  | rootless text => exact h.elim
  | segments names =>
    intro c hc
    obtain ⟨name, hn, hc⟩ := List.mem_flatMap.1 hc
    rcases List.mem_cons.1 hc with rfl | hc
    · decide
    · exact (h.2 name hn).keeps c hc

end Path

end MapGate.Url
