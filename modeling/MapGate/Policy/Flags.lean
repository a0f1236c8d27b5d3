/-!
# Permission flags

A set of permission tags such as `view` or `query`. The tags keep the order in
which they came, and each is held once. A tag that is missing is a permission
that is not given; no tag stands for all others.
-/

namespace MapGate

/-- A set of permission tags in the order of their arrival. -/
structure Flags where
  tags : List String
  nodup : tags.Nodup

namespace Flags

/-- The set that permits nothing. -/
def empty : Flags := ⟨[], List.nodup_nil⟩

instance : EmptyCollection Flags := ⟨empty⟩
instance : Inhabited Flags := ⟨empty⟩

/-- Whether a tag is in the set. -/
def has (f : Flags) (tag : String) : Bool := f.tags.contains tag

/-- How many tags are in the set. -/
def size (f : Flags) : Nat := f.tags.length

/-- Whether the set permits nothing. -/
def isEmpty (f : Flags) : Bool := f.tags.isEmpty

/-- The set with one more tag, which comes last if it is new. -/
def insert (f : Flags) (tag : String) : Flags :=
  if h : tag ∈ f.tags then f
  else ⟨f.tags ++ [tag], by
    rw [List.nodup_append]
    refine ⟨f.nodup, by simp, fun a ha b hb e => h ?_⟩
    rwa [← List.mem_singleton.1 hb, ← e]⟩

/-- The set of the tags of a list, in the order of their first occurrence. -/
def ofList (tags : List String) : Flags := tags.foldl insert ∅

/-- All tags of both sets; those of `f` come first. -/
def union (f g : Flags) : Flags := g.tags.foldl insert f

/-- The tags of `f` that are also in `g`. -/
def inter (f g : Flags) : Flags := ⟨f.tags.filter g.has, f.nodup.filter _⟩

instance : Union Flags := ⟨union⟩
instance : Inter Flags := ⟨inter⟩

/-- Sets are equal if they hold the same tags, in whatever order. -/
instance : BEq Flags := ⟨fun f g => f.size == g.size && f.tags.all g.has⟩

/-- The tags in brackets, with a comma between them. -/
def render (f : Flags) : String := "[" ++ ", ".intercalate f.tags ++ "]"

theorem has_iff {f : Flags} {tag : String} : f.has tag ↔ tag ∈ f.tags := by
  simp [has]

@[simp] theorem has_empty (tag : String) : (∅ : Flags).has tag = false := rfl

theorem tags_insert (f : Flags) (tag : String) :
    (f.insert tag).tags = if tag ∈ f.tags then f.tags else f.tags ++ [tag] := by
  unfold insert; split <;> rfl

theorem mem_tags_insert {f : Flags} {t tag : String} :
    t ∈ (f.insert tag).tags ↔ t ∈ f.tags ∨ t = tag := by
  rw [tags_insert]
  split
  · exact ⟨Or.inl, fun h => h.elim id (· ▸ ‹_›)⟩
  · rw [List.mem_append, List.mem_singleton]

theorem mem_tags_foldl_insert {f : Flags} {l : List String} {t : String} :
    t ∈ (l.foldl insert f).tags ↔ t ∈ f.tags ∨ t ∈ l := by
  induction l generalizing f with
  | nil => simp
  | cons a l ih => rw [List.foldl_cons, ih, mem_tags_insert, List.mem_cons, or_assoc]

theorem mem_tags_union {f g : Flags} {t : String} :
    t ∈ (f ∪ g).tags ↔ t ∈ f.tags ∨ t ∈ g.tags := mem_tags_foldl_insert

theorem mem_tags_inter {f g : Flags} {t : String} :
    t ∈ (f ∩ g).tags ↔ t ∈ f.tags ∧ t ∈ g.tags := by
  change t ∈ f.tags.filter g.has ↔ _
  rw [List.mem_filter, has_iff]

end Flags

end MapGate
