import MapGate.Proofs.Text.Pieces
import MapGate.Proofs.Xml.Entities
import MapGate.Xml.Attribute
import MapGate.Xml.Printer

/-!
# Attributes read back

Attributes with different keys, all of which can be read as keys, are read back
from the text that is written for them (`attributesFrom_renderAttributes`).
Attributes that were read are such (`wellFormed_of_attributesFrom`).
-/

namespace MapGate.Xml

/-- A key that is read as one where it stands in a tag. -/
def KeyReads (key : String) : Prop :=
  ∃ first rest, key.toList = first :: rest ∧ isSpace first = false ∧
    ∀ c ∈ rest, c ≠ '=' ∧ isSpace c = false

/-- Attributes as a tag can list them. -/
structure AttributesWellFormed (attributes : List (String × String)) : Prop where
  keys : ∀ entry ∈ attributes, KeyReads entry.1
  distinct : (attributes.map (·.1)).Nodup

theorem takeWhile_key_append {rest : List Char} (h : ∀ c ∈ rest, c ≠ '=' ∧ isSpace c = false)
    (l : List Char) : (rest ++ '=' :: l).takeWhile (fun c => c ≠ '=' && !isSpace c) = rest ∧
      (rest ++ '=' :: l).dropWhile (fun c => c ≠ '=' && !isSpace c) = '=' :: l := by
  have all : ∀ c ∈ rest, (decide (c ≠ '=') && !isSpace c) = true := fun c hc => by
    simpa using h c hc
  constructor
  · rw [List.takeWhile_append_of_pos all]; simp
  · rw [List.dropWhile_append_of_pos all]; simp

/-- A written attribute is read, and what follows it is left. -/
theorem readAttribute?_render {key : String} (h : KeyReads key) (value : List Char)
    (l : List Char) :
    readAttribute? (key.toList ++ '=' :: '"' :: escape value ++ '"' :: l) =
      some ((key.toList, escape value), l) := by
  obtain ⟨first, rest, e, -, hr⟩ := h
  have cut := takeWhile_key_append hr ('"' :: (escape value ++ '"' :: l))
  rw [e, show first :: rest ++ '=' :: '"' :: escape value ++ '"' :: l =
    first :: (rest ++ '=' :: '"' :: (escape value ++ '"' :: l)) by simp]
  simp only [readAttribute?, cut.1, cut.2]
  rw [List.dropWhile_cons_of_neg (by decide)]
  simp only [List.dropWhile_cons_of_neg (show ¬ isSpace '"' = true by decide), true_or, if_true,
    Text.splitFirst?_append (quote_notMem_escape value)]

/-! ## Lists of attributes -/

theorem attributesFrom_blank {seen : List String} {l : List Char} (h : l.dropWhile isSpace = []) :
    attributesFrom seen l = .ok [] := by
  rw [attributesFrom, if_pos (by rw [h]; rfl)]

theorem attributesFrom_cons {seen : List String} {l key written rest value : List Char}
    (hr : readAttribute? (l.dropWhile isSpace) = some ((key, written), rest))
    (hn : String.ofList key ∉ seen) (hu : unescape? written = some value) :
    attributesFrom seen l = (attributesFrom (String.ofList key :: seen) rest).map
      ((String.ofList key, String.ofList value) :: ·) := by
  have hne : (l.dropWhile isSpace).isEmpty = false := by
    cases h : l.dropWhile isSpace with
    | nil => rw [h] at hr; cases hr
    | cons c l => rfl
  rw [attributesFrom, hne, if_neg Bool.false_ne_true]
  split
  · rename_i h; rw [hr] at h; cases h
  · rename_i h
    rw [hr] at h
    cases h
    rw [if_neg hn, hu]

/-- Attributes are read from blanks, or one after the other. -/
theorem attributesFrom_eq_ok {seen : List String} {l : List Char}
    {attributes : List (String × String)} (h : attributesFrom seen l = .ok attributes) :
    attributes = [] ∨ ∃ key written rest value attributes',
      readAttribute? (l.dropWhile isSpace) = some ((key, written), rest) ∧
      String.ofList key ∉ seen ∧ unescape? written = some value ∧
      attributesFrom (String.ofList key :: seen) rest = .ok attributes' ∧
      attributes = (String.ofList key, String.ofList value) :: attributes' := by
  rw [attributesFrom] at h
  split at h
  · cases h; exact .inl rfl
  · split at h
    · cases h
    · rename_i key written rest hr
      dsimp only at h
      split at h
      · cases h
      · rename_i hn
        split at h
        · cases h
        · rename_i value hu
          cases ha : attributesFrom (String.ofList key :: seen) rest with
          | error fault => rw [ha] at h; cases h
          | ok attributes' =>
            rw [ha] at h
            cases h
            exact .inr ⟨key, written, rest, value, attributes', hr, hn, hu, ha, rfl⟩

theorem renderAttributes_cons (key value : String) (attributes : List (String × String)) :
    renderAttributes ((key, value) :: attributes) =
      ' ' :: (key.toList ++ '=' :: '"' :: escape value.toList ++ '"' :: renderAttributes attributes) := by
  simp [renderAttributes]

theorem attributesFrom_renderAttributes {seen : List String} {attributes : List (String × String)}
    (h : AttributesWellFormed attributes) (hs : ∀ entry ∈ attributes, entry.1 ∉ seen) :
    attributesFrom seen (renderAttributes attributes) = .ok attributes := by
  induction attributes generalizing seen with
  | nil => exact attributesFrom_blank rfl
  | cons entry attributes ih =>
    obtain ⟨key, value⟩ := entry
    have hk := h.keys _ List.mem_cons_self
    have hd := List.nodup_cons.1 h.distinct
    have start : (renderAttributes ((key, value) :: attributes)).dropWhile isSpace =
        key.toList ++ '=' :: '"' :: escape value.toList ++ '"' :: renderAttributes attributes := by
      obtain ⟨first, rest, e, hf, -⟩ := hk
      rw [renderAttributes_cons, List.dropWhile_cons_of_pos (by decide), e, List.cons_append,
        List.cons_append, List.dropWhile_cons_of_neg (by simp [hf])]
    have read := readAttribute?_render hk value.toList (renderAttributes attributes)
    have rest : attributesFrom (key :: seen) (renderAttributes attributes) = .ok attributes := by
      refine ih ⟨fun e he => h.keys e (List.mem_cons_of_mem _ he), hd.2⟩ fun e he hm => ?_
      rcases List.mem_cons.1 hm with e' | hm
      · exact hd.1 (List.mem_map.2 ⟨e, he, e'⟩)
      · exact hs e (List.mem_cons_of_mem _ he) hm
    rw [attributesFrom_cons (start ▸ read) (by simpa using hs _ List.mem_cons_self)
      (unescape?_escape _), String.ofList_toList, String.ofList_toList, rest]
    rfl

theorem attributes_render {name : String} {attributes : List (String × String)}
    (h : AttributesWellFormed attributes) :
    (⟨name, renderAttributes attributes⟩ : Tag).attributes = .ok attributes :=
  attributesFrom_renderAttributes h fun _ _ => List.not_mem_nil

/-! ## Attributes that were read -/

theorem keyReads_of_readAttribute? {l key written rest : List Char}
    (h : readAttribute? (l.dropWhile isSpace) = some ((key, written), rest)) :
    KeyReads (String.ofList key) := by
  have hs := List.head?_dropWhile_not isSpace l
  cases hl : l.dropWhile isSpace with
  | nil => rw [hl] at h; cases h
  | cons first tail =>
    rw [hl] at h hs
    have hk : key = first :: tail.takeWhile fun c => c ≠ '=' && !isSpace c := by
      simp only [readAttribute?] at h
      split at h
      · split at h
        · split at h
          · split at h
            · cases h; rfl
            · cases h
          · cases h
        · cases h
      · cases h
    refine ⟨first, tail.takeWhile fun c => c ≠ '=' && !isSpace c, ?_, by simpa using hs, fun c hc => ?_⟩
    · rw [String.toList_ofList, hk]
    · have := List.all_takeWhile (p := fun c => c ≠ '=' && !isSpace c) (l := tail)
      rw [List.all_eq_true] at this
      simpa using this c hc

theorem wellFormed_of_attributesFrom {seen : List String} {l : List Char}
    {attributes : List (String × String)} (h : attributesFrom seen l = .ok attributes) :
    AttributesWellFormed attributes ∧ ∀ entry ∈ attributes, entry.1 ∉ seen := by
  induction attributes generalizing seen l with
  | nil => exact ⟨⟨List.forall_mem_nil _, List.nodup_nil⟩, List.forall_mem_nil _⟩
  | cons entry attributes ih =>
    obtain h | ⟨key, written, rest, value, attributes', hr, hn, -, ha, e⟩ := attributesFrom_eq_ok h
    · cases h
    · obtain ⟨rfl, rfl⟩ := List.cons.inj e
      obtain ⟨hw, hs⟩ := ih ha
      refine ⟨⟨fun e he => ?_, ?_⟩, fun e he => ?_⟩
      · rcases List.mem_cons.1 he with rfl | he
        · exact keyReads_of_readAttribute? hr
        · exact hw.keys e he
      · refine List.nodup_cons.2 ⟨fun hm => ?_, hw.distinct⟩
        obtain ⟨e, he, e'⟩ := List.mem_map.1 hm
        exact hs e he (by rw [e']; exact List.mem_cons_self)
      · rcases List.mem_cons.1 he with rfl | he
        · exact hn
        · exact fun hm => hs e he (List.mem_cons_of_mem _ hm)

end MapGate.Xml
