import Mathlib.Data.List.Perm.Subperm
import MapGate.Policy.SettingsDocument
import MapGate.Proofs.Policy.Grants

/-!
# Flags as sets

However flags are put together, they hold each tag once, where it was first seen
(`MadeOf.tags_eq`). Because no tag is held twice, comparing the sizes and looking in one
direction is enough to tell whether two flags hold the same tags (`beq_iff`). Union and
intersection join what the two sides say about each tag, from which their laws follow
(`IsSemilattice.of_has`), and the order in which many flags are united does not count.
-/

namespace MapGate

/-! ## Lists without repetitions -/

section FirstSeen

variable {l : List String}

/-- Leaving out elements and leaving out repetitions do not depend on each other. -/
theorem eraseDups_filter (p : String → Bool) : ∀ l : List String,
    (l.filter p).eraseDups = l.eraseDups.filter p
  | [] => rfl
  | a :: l => by
    have shorter : (l.filter fun b => !b == a).length < l.length + 1 :=
      Nat.lt_succ_of_le (List.length_filter_le _ _)
    rw [List.eraseDups_cons, List.filter_cons, List.filter_cons,
      ← eraseDups_filter p (l.filter fun b => !b == a)]
    by_cases h : p a = true
    · rw [if_pos h, if_pos h, List.eraseDups_cons, List.filter_comm]
    · rw [if_neg h, if_neg h, List.filter_filter]
      refine congrArg List.eraseDups (List.filter_congr fun b _ => ?_)
      -- What is kept differs from `a`, which is not.
      by_cases e : b = a
      · subst e; simp [h]
      · simp [e]
termination_by l => l.length

theorem eraseDups_of_nodup (h : l.Nodup) : l.eraseDups = l := by
  induction l with
  | nil => rfl
  | cons a l ih =>
    obtain ⟨new, nodup⟩ := List.nodup_cons.1 h
    have all : l.filter (fun b => !b == a) = l :=
      List.filter_eq_self.2 fun b hb => by simpa using fun e : b = a => new (e ▸ hb)
    rw [List.eraseDups_cons, all, ih nodup]

theorem nodup_eraseDups : ∀ l : List String, l.eraseDups.Nodup
  | [] => List.nodup_nil
  | a :: l => by
    have shorter : (l.filter fun b => !b == a).length < l.length + 1 :=
      Nat.lt_succ_of_le (List.length_filter_le _ _)
    rw [List.eraseDups_cons, List.nodup_cons, List.mem_eraseDups]
    exact ⟨by simp, nodup_eraseDups _⟩
termination_by l => l.length

theorem eraseDups_eraseDups (l : List String) : l.eraseDups.eraseDups = l.eraseDups :=
  eraseDups_of_nodup (nodup_eraseDups l)

/-- Repetitions may be left out before anything is added, -/
theorem eraseDups_append_left (l m : List String) :
    (l.eraseDups ++ m).eraseDups = (l ++ m).eraseDups := by
  have known : m.removeAll l.eraseDups = m.removeAll l :=
    List.filter_congr fun a _ => by simp [List.mem_eraseDups]
  rw [List.eraseDups_append, List.eraseDups_append, known, eraseDups_eraseDups]

/-- and in what is added. -/
theorem eraseDups_append_right (l m : List String) :
    (l ++ m.eraseDups).eraseDups = (l ++ m).eraseDups := by
  rw [List.eraseDups_append, List.eraseDups_append, List.removeAll, List.removeAll,
    eraseDups_filter, eraseDups_filter, eraseDups_eraseDups]

end FirstSeen

namespace Flags

variable {f g : Flags} {seen : List String}

/-! ## How flags come about -/

/-- The flags were put together from tags that were seen in the given order. -/
inductive MadeOf : Flags → List String → Prop where
  | empty : MadeOf ∅ []
  | insert {f : Flags} {seen : List String} (tag : String) (made : MadeOf f seen) :
    MadeOf (f.insert tag) (seen ++ [tag])
  | union {f g : Flags} {seen seen' : List String} (left : MadeOf f seen)
    (right : MadeOf g seen') : MadeOf (f ∪ g) (seen ++ seen')
  | inter {f g : Flags} {seen seen' : List String} (left : MadeOf f seen)
    (right : MadeOf g seen') : MadeOf (f ∩ g) (seen.filter (· ∈ seen'))
  | ofList (tags : List String) : MadeOf (ofList tags) tags
  | read {document : Yaml.Document} {node : Yaml.Node} {tags : List String} {f : Flags}
    (list : document.list? document.text? node = some tags)
    (reads : ProjectSettings.readFlags? document node = some f) : MadeOf f tags

theorem tags_insert_eq (f : Flags) (tag : String) :
    (f.insert tag).tags = (f.tags ++ [tag]).eraseDups := by
  rw [tags_insert, List.eraseDups_append, eraseDups_of_nodup f.nodup, List.removeAll]
  by_cases h : tag ∈ f.tags
  · simp [h]
  · simp [h, List.eraseDups_cons]

theorem tags_foldl_insert (f : Flags) (tags : List String) :
    (tags.foldl insert f).tags = (f.tags ++ tags).eraseDups := by
  induction tags generalizing f with
  | nil => rw [List.append_nil, eraseDups_of_nodup f.nodup, List.foldl_nil]
  | cons tag tags ih =>
    rw [List.foldl_cons, ih, tags_insert_eq, eraseDups_append_left, List.append_assoc,
      List.singleton_append]

theorem tags_ofList (tags : List String) : (ofList tags).tags = tags.eraseDups :=
  tags_foldl_insert ∅ tags

/-- The tags of the left side, and then those that only the right side has. -/
theorem tags_union (f g : Flags) :
    (f ∪ g).tags = f.tags ++ g.tags.filter fun tag => !f.has tag := by
  have joined : (f ∪ g).tags = (f.tags ++ g.tags).eraseDups := tags_foldl_insert f g.tags
  rw [joined, List.eraseDups_append, List.removeAll, eraseDups_filter, eraseDups_of_nodup f.nodup,
    eraseDups_of_nodup g.nodup]
  rfl

/-- Flags hold each tag once, where it was first seen. -/
theorem MadeOf.tags_eq (h : f.MadeOf seen) : f.tags = seen.eraseDups := by
  induction h with
  | empty => rfl
  | insert tag _ ih =>
    rw [tags_insert_eq, ih, eraseDups_append_left]
  | @union f g seen seen' _ _ ihf ihg =>
    have joined : (f ∪ g).tags = (f.tags ++ g.tags).eraseDups := tags_foldl_insert f g.tags
    rw [joined, ihf, ihg, eraseDups_append_left, eraseDups_append_right]
  | @inter f g seen seen' _ _ ihf ihg =>
    have kept : (f ∩ g).tags = f.tags.filter g.has := rfl
    rw [kept, ihf, ← eraseDups_filter]
    refine congrArg List.eraseDups (List.filter_congr fun tag _ => ?_)
    rw [Bool.eq_iff_iff, has_iff, ihg, List.mem_eraseDups, decide_eq_true_iff]
  | ofList tags => exact tags_ofList tags
  | read list reads =>
    rw [ProjectSettings.readFlags?, list] at reads
    cases reads
    exact tags_ofList _

/-! ## Equal sets -/

/-- Flags are equal if they hold the same tags: where one side holds no more tags than
the other, looking in one direction is enough. -/
theorem beq_iff : (f == g) = true ↔ ∀ tag, tag ∈ f.tags ↔ tag ∈ g.tags := by
  have opened : (f == g) = (f.size == g.size && f.tags.all g.has) := rfl
  rw [opened, Bool.and_eq_true, beq_iff_eq, List.all_eq_true]
  constructor
  · intro h
    obtain ⟨size, within⟩ := h
    have subset : f.tags ⊆ g.tags := fun tag ht => has_iff.1 (within tag ht)
    have perm := (List.subperm_of_subset f.nodup subset).perm_of_length_le (Nat.le_of_eq size.symm)
    exact fun tag => perm.mem_iff
  · intro h
    have perm := (List.perm_ext_iff_of_nodup f.nodup g.nodup).2 h
    exact ⟨perm.length_eq, fun tag ht => has_iff.2 ((h tag).1 ht)⟩

theorem beq_iff_has : (f == g) = true ↔ ∀ tag, f.has tag = g.has tag := by
  rw [beq_iff]
  exact forall_congr' fun tag => by rw [Bool.eq_iff_iff, has_iff, has_iff]

theorem equivalence_beq : Equivalence fun f g : Flags => (f == g) = true where
  refl _ := beq_iff_has.2 fun _ => rfl
  symm h := beq_iff_has.2 fun tag => (beq_iff_has.1 h tag).symm
  trans h h' := beq_iff_has.2 fun tag => (beq_iff_has.1 h tag).trans (beq_iff_has.1 h' tag)

/-! ## Union and intersection -/

theorem has_inter (f g : Flags) (tag : String) : (f ∩ g).has tag = (f.has tag && g.has tag) := by
  rw [Bool.eq_iff_iff, Bool.and_eq_true, has_iff, has_iff, has_iff, mem_tags_inter]

/-- An operation for which, but for the order of the tags, neither the order nor the
grouping nor the repetition of its operands counts. -/
structure IsSemilattice (op : Flags → Flags → Flags) : Prop where
  comm : ∀ f g, (op f g == op g f) = true
  assoc : ∀ f g h, (op (op f g) h == op f (op g h)) = true
  idem : ∀ f, (op f f == f) = true

/-- An operation that joins what its operands say about each tag has the laws of the
way in which it joins them. -/
theorem IsSemilattice.of_has {op : Flags → Flags → Flags} {join : Bool → Bool → Bool}
    (has_op : ∀ f g tag, (op f g).has tag = join (f.has tag) (g.has tag))
    (comm : ∀ a b, join a b = join b a)
    (assoc : ∀ a b c, join (join a b) c = join a (join b c)) (idem : ∀ a, join a a = a) :
    IsSemilattice op where
  comm f g := beq_iff_has.2 fun tag => by rw [has_op, has_op, comm]
  assoc f g h := beq_iff_has.2 fun tag => by simp only [has_op, assoc]
  idem f := beq_iff_has.2 fun tag => by rw [has_op, idem]

theorem isSemilattice_union : IsSemilattice (· ∪ ·) :=
  .of_has has_union Bool.or_comm Bool.or_assoc Bool.or_self

theorem isSemilattice_inter : IsSemilattice (· ∩ ·) :=
  .of_has has_inter Bool.and_comm Bool.and_assoc Bool.and_self

theorem foldl_union_perm {fs gs : List Flags} (perm : fs.Perm gs) (f : Flags) :
    (fs.foldl (· ∪ ·) f == gs.foldl (· ∪ ·) f) = true := by
  refine beq_iff_has.2 fun tag => ?_
  rw [Bool.eq_iff_iff, has_foldl_union, has_foldl_union]
  simp only [perm.mem_iff]

/-- Flags that are put together in any way hold each tag once, in the order in which the
tags were first seen, and those of a union are the tags of its left side and then the
new ones of its right side. Equality is that of the sets of tags. A union has the tags of
either side and an intersection those of both, with the laws of sets, and flags may be
united in any order. -/
theorem flags_are_sets :
    (∀ (f : Flags) (seen : List String), f.MadeOf seen →
      f.tags.Nodup ∧ f.tags = seen.eraseDups) ∧
    (∀ f g : Flags, (f ∪ g).tags = f.tags ++ g.tags.filter fun tag => !f.has tag) ∧
    (∀ f g : Flags, (f == g) = true ↔ ∀ tag, tag ∈ f.tags ↔ tag ∈ g.tags) ∧
    (Equivalence fun f g : Flags => (f == g) = true) ∧
    (∀ (f g : Flags) (tag : String), (f ∪ g).has tag = (f.has tag || g.has tag)) ∧
    (∀ (f g : Flags) (tag : String), (f ∩ g).has tag = (f.has tag && g.has tag)) ∧
    IsSemilattice (· ∪ ·) ∧ IsSemilattice (· ∩ ·) ∧
    ∀ (fs gs : List Flags), fs.Perm gs → ∀ f : Flags,
      (fs.foldl (· ∪ ·) f == gs.foldl (· ∪ ·) f) = true := by
  refine ⟨fun f seen made => ⟨?_, made.tags_eq⟩, tags_union, fun f g => beq_iff, equivalence_beq,
    has_union, has_inter, isSemilattice_union, isSemilattice_inter, fun fs gs perm f =>
      foldl_union_perm perm f⟩
  rw [made.tags_eq]
  exact nodup_eraseDups seen

/-- Repeated and common tags count where they come first, and it does not matter which
of the two comes first in a longer union. -/
theorem flags_are_sets_twoLists :
    let f := ofList ["query", "view", "query"]
    let g := ofList ["edit", "view"]
    (f ∪ g).MadeOf ["query", "view", "query", "edit", "view"] ∧
      (f ∪ g).tags = ["query", "view", "edit"] ∧ [f, g].Perm [g, f] ∧
      (∅ ∪ f ∪ g == ∅ ∪ g ∪ f) = true := by
  intro f g
  obtain ⟨madeOf, -, -, -, -, -, -, -, folds⟩ := flags_are_sets
  have made : (f ∪ g).MadeOf ["query", "view", "query", "edit", "view"] :=
    .union (.ofList _) (.ofList _)
  obtain ⟨-, order⟩ := madeOf (f ∪ g) _ made
  have perm : [f, g].Perm [g, f] := .swap g f []
  exact ⟨made, order.trans (by decide), perm, folds [f, g] [g, f] perm ∅⟩

end Flags

end MapGate
