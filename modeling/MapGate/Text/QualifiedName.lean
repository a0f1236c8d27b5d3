/-!
# Qualified names

A name may carry a namespace in front of it, with a colon between the two. Of
such a name only the part after the last colon, its local name, identifies
anything.
-/

namespace MapGate.Text

/-- The part of a name after its last colon. -/
def localName (name : String) : String :=
  String.ofList (name.toList.reverse.takeWhile (· ≠ ':')).reverse

/-- The part of a name before its last colon, if it has one. -/
def namePrefix? (name : String) : Option String :=
  match name.toList.reverse.dropWhile (· ≠ ':') with
  | [] => none
  | _ :: front => some (String.ofList front.reverse)

theorem toList_localName (name : String) :
    (localName name).toList = (name.toList.reverse.takeWhile (· ≠ ':')).reverse :=
  String.toList_ofList

/-- A local name holds no colon. -/
theorem colon_notMem_localName (name : String) : ':' ∉ (localName name).toList := by
  intro h
  rw [toList_localName, List.mem_reverse] at h
  have := List.all_takeWhile (p := (· ≠ ':')) (l := name.toList.reverse)
  rw [List.all_eq_true] at this
  simpa using this _ h

/-- A name without a colon is its own local name. -/
theorem localName_of_colon_notMem {name : String} (h : ':' ∉ name.toList) :
    localName name = name := by
  have all : ∀ c ∈ name.toList.reverse, (c ≠ ':' : Bool) := fun c hc => by
    simpa using fun e : c = ':' => h (e ▸ List.mem_reverse.1 hc)
  have := @List.takeWhile_append_of_pos _ (· ≠ ':') _ [] all
  simp only [List.append_nil, List.takeWhile_nil] at this
  rw [localName, this, List.reverse_reverse, String.ofList_toList]

theorem localName_eq_self_iff {name : String} : localName name = name ↔ ':' ∉ name.toList :=
  ⟨fun e => e ▸ colon_notMem_localName name, localName_of_colon_notMem⟩

/-- A qualified name put together reads as its parts. -/
theorem localName_append {ns name : String} (h : ':' ∉ name.toList) :
    localName (ns ++ ":" ++ name) = name := by
  have all : ∀ c ∈ name.toList.reverse, (c ≠ ':' : Bool) := fun c hc => by
    simpa using fun e : c = ':' => h (e ▸ List.mem_reverse.1 hc)
  rw [localName, String.toList_append, String.toList_append, List.reverse_append,
    List.takeWhile_append_of_pos all]
  simp

theorem namePrefix?_append {ns name : String} (h : ':' ∉ name.toList) :
    namePrefix? (ns ++ ":" ++ name) = some ns := by
  have all : ∀ c ∈ name.toList.reverse, (c ≠ ':' : Bool) := fun c hc => by
    simpa using fun e : c = ':' => h (e ▸ List.mem_reverse.1 hc)
  rw [namePrefix?, String.toList_append, String.toList_append, List.reverse_append,
    List.dropWhile_append_of_pos all]
  simp

/-- A namespace stands at the start of the name. -/
theorem exists_toList_of_namePrefix? {name ns : String} (h : namePrefix? name = some ns) :
    ∃ rest, name.toList = ns.toList ++ rest := by
  rw [namePrefix?] at h
  split at h
  · cases h
  · rename_i c front e
    cases h
    have whole := @List.takeWhile_append_dropWhile _ (· ≠ ':') name.toList.reverse
    rw [e] at whole
    have := congrArg List.reverse whole
    rw [List.reverse_append, List.reverse_cons, List.reverse_reverse, List.append_assoc] at this
    exact ⟨_, by rw [String.toList_ofList]; exact this.symm⟩

/-- A name without a colon has no namespace. -/
theorem namePrefix?_of_colon_notMem {name : String} (h : ':' ∉ name.toList) :
    namePrefix? name = none := by
  have all : ∀ c ∈ name.toList.reverse, (c ≠ ':' : Bool) := fun c hc => by
    simpa using fun e : c = ':' => h (e ▸ List.mem_reverse.1 hc)
  have := @List.dropWhile_append_of_pos _ (· ≠ ':') _ [] all
  simp only [List.append_nil, List.dropWhile_nil] at this
  rw [namePrefix?, this]

end MapGate.Text
