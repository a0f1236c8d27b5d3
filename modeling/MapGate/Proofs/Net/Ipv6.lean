import Mathlib.Data.List.Basic
import MapGate.Net.Ipv6
import MapGate.Proofs.Text.Digits
import MapGate.Proofs.Text.Pieces

/-!
# IPv6 addresses read back

An address is read back from its text (`ofChars?_renderChars`): groups are, in front of the
run of zeros that is left out and behind it (`groupsOfChars?_renderGroups`), the two colons
that stand for the run are found where it was (`splitAtChars?_renderGroups`), and as many
zeros are put there as are missing (`eq_around_longestRun`).
-/

namespace MapGate.Ipv6

/-! ## Groups -/

theorem group?_renderGroup (g : UInt16) : group? (renderGroup g) = some g := by
  have short : (renderGroup g).length ≤ 4 :=
    (Nat.length_toDigits_le_iff (by decide) (by decide)).2 g.toNat_lt
  rw [group?, if_pos short, renderGroup, Text.number?_toDigits (by decide) (by decide),
    Option.map_some, UInt16.ofNat_toNat]

theorem colon_notMem_renderGroup (g : UInt16) : ':' ∉ renderGroup g := by
  have all : ∀ d < 16, ':' ≠ Nat.digitChar d := by decide
  intro h
  obtain ⟨d, hd, e⟩ := Text.exists_of_mem_toDigits (by decide) h
  exact all d hd e

theorem groups?_map_renderGroup (mayEndInV4 : Bool) (groups : List UInt16) :
    groups? mayEndInV4 (groups.map renderGroup) = some groups := by
  induction groups with
  | nil => rfl
  | cons g groups ih =>
    cases groups with
    | nil => rw [List.map_singleton, groups?, group?_renderGroup]
    | cons next groups =>
      rw [List.map_cons, List.map_cons, groups?, ← List.map_cons, group?_renderGroup, ih]
      · rfl
      · exact List.cons_ne_nil _ _

theorem renderGroups_cons_cons (g next : UInt16) (groups : List UInt16) :
    renderGroups (g :: next :: groups) = renderGroup g ++ ':' :: renderGroups (next :: groups) := by
  rw [renderGroups, List.map_cons, List.map_cons, List.intercalate_cons_cons, List.append_assoc]
  rfl

/-- The text of groups starts with a digit. -/
theorem exists_renderGroups_cons (g : UInt16) (groups : List UInt16) :
    ∃ c l, c ≠ ':' ∧ renderGroups (g :: groups) = c :: l := by
  obtain ⟨c, l, e⟩ := List.exists_cons_of_ne_nil (Nat.toDigits_ne_nil (n := g.toNat) (b := 16))
  have digit : c ≠ ':' := fun h => colon_notMem_renderGroup g (by
    rw [renderGroup, e, h]
    exact List.mem_cons_self)
  cases groups with
  | nil => exact ⟨c, l, digit, by rw [renderGroups, List.map_singleton, List.intercalate_singleton,
      renderGroup, e]⟩
  | cons next groups =>
    exact ⟨c, _, digit, by rw [renderGroups_cons_cons, renderGroup, e, List.cons_append]⟩

theorem groupsOfChars?_renderGroups (mayEndInV4 : Bool) (groups : List UInt16) :
    groupsOfChars? mayEndInV4 (renderGroups groups) = some groups := by
  cases groups with
  | nil => rfl
  | cons g groups =>
    obtain ⟨c, l, -, e⟩ := exists_renderGroups_cons g groups
    have filled : (renderGroups (g :: groups)).isEmpty = false := by rw [e]; rfl
    have colons : ∀ piece ∈ (g :: groups).map renderGroup, ':' ∉ piece := fun piece hp => by
      obtain ⟨g, -, rfl⟩ := List.mem_map.1 hp
      exact colon_notMem_renderGroup g
    rw [groupsOfChars?, filled, if_neg Bool.false_ne_true, renderGroups,
      List.splitOn_intercalate ':' colons (by simp), groups?_map_renderGroup]

/-! ## The two colons -/

theorem splitAtChars?_colons (l : List Char) :
    Text.splitAtChars? "::".toList ("::".toList ++ l) = some ([], l) := rfl

/-- No two colons start at any other character. -/
theorem splitAtChars?_of_notMem {front : List Char} (h : ':' ∉ front) (l : List Char) :
    Text.splitAtChars? "::".toList (front ++ l) =
      (Text.splitAtChars? "::".toList l).map fun (before, rest) => (front ++ before, rest) := by
  induction front with
  | nil => simp
  | cons c front ih =>
    rw [List.mem_cons, not_or] at h
    have none : Text.stripPrefixChars? "::".toList (c :: (front ++ l)) = none := if_neg h.1
    rw [List.cons_append, Text.splitAtChars?, none, ih h.2, Option.map_map]
    rfl

theorem splitAtChars?_colon_cons {c : Char} (h : c ≠ ':') (l : List Char) :
    Text.splitAtChars? "::".toList (':' :: c :: l) =
      (Text.splitAtChars? "::".toList (c :: l)).map fun (before, rest) =>
        (':' :: before, rest) := by
  have none : Text.stripPrefixChars? "::".toList (':' :: c :: l) = none := if_neg (Ne.symm h)
  rw [Text.splitAtChars?, none]

/-- Groups hold no two colons. -/
theorem splitAtChars?_renderGroups (groups : List UInt16) (l : List Char) :
    Text.splitAtChars? "::".toList (renderGroups groups ++ l) =
      (Text.splitAtChars? "::".toList l).map fun (before, rest) =>
        (renderGroups groups ++ before, rest) := by
  induction groups with
  | nil => simp [renderGroups]
  | cons g groups ih =>
    cases groups with
    | nil =>
      rw [renderGroups, List.map_singleton, List.intercalate_singleton]
      exact splitAtChars?_of_notMem (colon_notMem_renderGroup g) l
    | cons next groups =>
      obtain ⟨c, tail, hc, e⟩ := exists_renderGroups_cons next groups
      rw [renderGroups_cons_cons, List.append_assoc,
        splitAtChars?_of_notMem (colon_notMem_renderGroup g), e, List.cons_append, List.cons_append,
        splitAtChars?_colon_cons hc, ← List.cons_append, ← e, ih, Option.map_map, Option.map_map]
      congr 1
      funext ⟨before, rest⟩
      simp

/-! ## The run of zeros -/

theorem replicate_leadingZeros (groups : List UInt16) :
    groups = List.replicate (leadingZeros groups) 0 ++ groups.drop (leadingZeros groups) := by
  have zeros : groups.takeWhile (· == 0) = List.replicate (leadingZeros groups) 0 :=
    List.eq_replicate_of_mem fun g hg => by
      simpa using List.all_eq_true.1 (List.all_takeWhile (p := (· == 0))) g hg
  have behind : groups.drop (leadingZeros groups) = groups.dropWhile (· == 0) := by
    conv => lhs; arg 2; rw [← List.takeWhile_append_dropWhile (p := (· == 0)) (l := groups)]
    rw [leadingZeros, List.drop_left]
  rw [behind, ← zeros, List.takeWhile_append_dropWhile]

/-- The longest run is a run of zeros. -/
theorem eq_around_longestRun (groups : List UInt16) :
    groups = groups.take (longestRun groups).1 ++ List.replicate (longestRun groups).2 0 ++
      groups.drop ((longestRun groups).1 + (longestRun groups).2) := by
  induction groups with
  | nil => rfl
  | cons g groups ih =>
    rw [longestRun]
    dsimp only
    split
    · rw [List.take_zero, List.nil_append, Nat.zero_add]
      exact replicate_leadingZeros (g :: groups)
    · rw [Nat.add_right_comm, List.take_succ_cons, List.drop_succ_cons, List.cons_append,
        List.cons_append, ← ih]

/-! ## Addresses -/

theorem ofGroups?_groups (ip : Ipv6) : ofGroups? ip.groups = some ip := dif_pos ip.length_groups

/-- An address is read back from its text. -/
theorem ofChars?_renderChars (ip : Ipv6) : ofChars? ip.renderChars = some ip := by
  have around := eq_around_longestRun ip.groups
  rw [renderChars]
  generalize longestRun ip.groups = run at around ⊢
  obtain ⟨start, length⟩ := run
  dsimp only at around ⊢
  split
  · have whole := splitAtChars?_renderGroups ip.groups []
    rw [List.append_nil] at whole
    have none : Text.splitAtChars? "::".toList [] = none := rfl
    rw [ofChars?, whole, none, Option.map_none]
    simp only [groupsOfChars?_renderGroups, Option.bind_eq_bind, Option.bind_some, ofGroups?_groups]
  · rename_i long
    generalize ip.groups.take start = front at around ⊢
    generalize ip.groups.drop (start + length) = back at around ⊢
    have total : front.length + length + back.length = 8 := by
      have := congrArg List.length around
      rw [ip.length_groups, List.length_append, List.length_append, List.length_replicate] at this
      omega
    have missing : 8 - front.length - back.length = length := by omega
    have found : Text.splitAtChars? "::".toList
        (renderGroups front ++ "::".toList ++ renderGroups back) =
          some (renderGroups front, renderGroups back) := by
      rw [List.append_assoc, splitAtChars?_renderGroups, splitAtChars?_colons, Option.map_some]
      simp only [List.append_nil]
    rw [ofChars?, found]
    simp only [groupsOfChars?_renderGroups, Option.bind_eq_bind, Option.bind_some]
    rw [if_pos (by omega), missing, ← around, ofGroups?_groups]

/-- The text of an address consists of hexadecimal digits and colons. -/
theorem mem_renderChars {ip : Ipv6} {c : Char} (h : c ∈ ip.renderChars) :
    c = ':' ∨ ∃ d < 16, c = Nat.digitChar d := by
  have groups : ∀ gs : List UInt16, c ∈ renderGroups gs →
      c = ':' ∨ ∃ d < 16, c = Nat.digitChar d := fun gs =>
    Text.forall_mem_intercalate (p := fun c => c = ':' ∨ ∃ d < 16, c = Nat.digitChar d)
      (fun c hc => .inl (List.mem_singleton.1 hc)) (fun text ht c hc => by
        obtain ⟨g, -, rfl⟩ := List.mem_map.1 ht
        exact .inr (Text.exists_of_mem_toDigits (by decide) hc)) c
  rw [renderChars] at h
  dsimp only at h
  split at h
  · exact groups _ h
  · rw [List.mem_append, List.mem_append] at h
    rcases h with (h | h) | h
    · exact groups _ h
    · exact .inl (by simpa using h)
    · exact groups _ h

end MapGate.Ipv6
