import MapGate.Proofs.Gate.Mediation
import MapGate.Proofs.Ows.Params
import MapGate.Proofs.Text.LetterCase

/-!
# Requests for rendered layers

A request that only lists layers to render, or to find features on, is decided by
its lists of layers. `Needs` says what each parameter, by its name, asks of the
layers that it lists. The request goes on exactly if no decision parameter is
repeated, the client brings no style, and every layer in every list permits what
is needed; it goes on as it is (`inspect_rendering_exact`).

A list is read from the first parameter of its name only. Since no decision
parameter is repeated, that is every one (`listPermitted_get?_iff`).
-/

namespace MapGate

open FeatureQuery (oneAttribute)

variable {roles : List Role} {index : LayerIndex} {params : Params} {name : String}
  {permission : Permission} {operation : Operation}

/-! ## Names of lists -/

/-- A name lists the layers of one map: something stands in front, and behind that
it ends in `:LAYERS`, in any letter case. -/
def NamesMapLayers (name : String) : Prop :=
  ∃ front back, name = front ++ back ∧ front ≠ "" ∧ Text.upper back = ":LAYERS"

/-- The suffix is looked for in the name made capital, which has as many bytes. -/
theorem listsMapLayers_iff : Params.listsMapLayers name = true ↔ NamesMapLayers name := by
  have longer : ∀ {front back : String}, Text.upper back = ":LAYERS" →
      (":LAYERS".utf8ByteSize < (front ++ back).utf8ByteSize ↔ front ≠ "") := by
    intro front back hb
    rw [String.utf8ByteSize_append, ← Text.utf8ByteSize_upper back, hb, Nat.lt_add_left_iff_pos,
      Nat.pos_iff_ne_zero, ne_eq, String.utf8ByteSize_eq_zero_iff]
  rw [Params.listsMapLayers, Bool.and_eq_true, decide_eq_true_eq, List.isSuffixOf_iff_suffix,
    Text.toList_upper]
  constructor
  · intro h
    obtain ⟨hl, ⟨capitals, hc⟩⟩ := h
    obtain ⟨front, back, e, -, hb⟩ := List.append_eq_map_iff.1 hc
    have whole : name = String.ofList front ++ String.ofList back := by
      rw [← String.ofList_append, ← e, String.ofList_toList]
    have suffix : Text.upper (String.ofList back) = ":LAYERS" := by
      rw [Text.upper, String.toList_ofList, hb, String.ofList_toList]
    exact ⟨_, _, whole, (longer suffix).1 (whole ▸ hl), suffix⟩
  · intro h
    obtain ⟨front, back, rfl, hf, hb⟩ := h
    refine ⟨(longer hb).2 hf, ?_⟩
    rw [← hb, Text.toList_upper, String.toList_append, List.map_append]
    exact List.suffix_append _ _

/-- What an operation needs of the layers that a parameter lists, by the name of the
parameter. -/
inductive Needs : Operation → String → Permission → Prop
  | map {name : String} (named : Text.sameName name "LAYERS") : Needs .getMap name .view
  | print {name : String} (named : Text.sameName name "LAYERS") : Needs .getPrint name .view
  | printedMap {name : String} (named : NamesMapLayers name) : Needs .getPrint name .view
  | queried {name : String} (named : Text.sameName name "QUERY_LAYERS") :
    Needs .getFeatureInfo name .query
  | queriedMap {name : String} (named : Text.sameName name "LAYERS") :
    Needs .getFeatureInfo name .view

/-- An operation that only lists layers. -/
def Renders (operation : Operation) : Prop :=
  operation = .getMap ∨ operation = .getPrint ∨ operation = .getFeatureInfo

/-! ## Lists of layers -/

/-- What an operation needs is permitted on all layers that the parameters list. -/
def ListsPermitted (roles : List Role) (index : LayerIndex) (params : Params)
    (operation : Operation) : Prop :=
  ∀ pair ∈ params.pairs, ∀ permission, Needs operation pair.1 permission →
    ∀ layer ∈ Text.entries pair.2, PermitsLayer roles (index.resolve layer) permission

/-- A list that may be given once may be read from the first parameter of its name. -/
theorem listPermitted_get?_iff (once : params.count name ≤ 1) :
    ListPermitted roles index ((params.get? name).getD "") permission ↔
      ∀ pair ∈ params.pairs, Text.sameName pair.1 name →
        ListPermitted roles index pair.2 permission := by
  constructor
  · intro h pair hp hn
    rwa [Params.get?_of_count_le_one once hp hn] at h
  · intro h
    cases hv : params.get? name with
    | none => simp [ListPermitted, show Text.entries "" = [] from rfl]
    | some value =>
      obtain ⟨before, key, after, e, hn, -⟩ := Params.get?_eq_some_iff.1 hv
      exact h (key, value) (by simp [e]) hn

theorem Unrepeated.count_le_one (h : Unrepeated params) (hn : [name] ∈ decisionParameters) :
    params.count name ≤ 1 := by
  simpa [Params.countGroup] using h [name] hn

theorem hasStyle_eq_false_iff :
    params.hasStyle = false ↔ params.Lacks "SLD" ∧ params.Lacks "SLD_BODY" := by
  simp [Params.hasStyle, Params.contains, ← Params.get?_eq_none_iff]

/-- With no parameter repeated, the lists that are read are all there are. -/
theorem parametersAccepted_iff (renders : Renders operation) (once : Unrepeated params) :
    ParametersAccepted roles index params operation ↔
      (params.Lacks "SLD" ∧ params.Lacks "SLD_BODY") ∧
        ListsPermitted roles index params operation := by
  have layers : ListPermitted roles index ((params.get? "LAYERS").getD "") .view ↔ _ :=
    listPermitted_get?_iff (once.count_le_one (by decide))
  have queryLayers : ListPermitted roles index ((params.get? "QUERY_LAYERS").getD "") .query ↔ _ :=
    listPermitted_get?_iff (once.count_le_one (by decide))
  rw [← hasStyle_eq_false_iff]
  rcases renders with rfl | rfl | rfl <;> refine and_congr_right fun _ => ?_
  · rw [layers]
    constructor
    · intro h pair hp permission needs
      cases needs with
      | map named => exact h pair hp named
    · intro h pair hp named
      exact h pair hp .view (.map named)
  · rw [layers]
    constructor
    · intro h pair hp permission needs
      cases needs with
      | print named => exact h.1 pair hp named
      | printedMap named => exact h.2 pair (List.mem_filter.2 ⟨hp, listsMapLayers_iff.2 named⟩)
    · intro h
      refine ⟨fun pair hp named => h pair hp .view (.print named), fun pair hp => ?_⟩
      obtain ⟨hp, named⟩ := List.mem_filter.1 hp
      exact h pair hp .view (.printedMap (listsMapLayers_iff.1 named))
  · rw [layers, queryLayers]
    constructor
    · intro h pair hp permission needs
      cases needs with
      | queried named => exact h.1 pair hp named
      | queriedMap named => exact h.2 pair hp named
    · intro h
      exact ⟨fun pair hp named => h pair hp .query (.queried named),
        fun pair hp named => h pair hp .view (.queriedMap named)⟩

/-! ## Requests -/

/-- A request without a body for an operation that only lists layers goes on exactly
if no decision parameter is repeated, the client brings no style, and all layers
in all lists permit what is needed. It goes on as it is. -/
theorem inspect_rendering_exact (context : PermissionContext) (index : LayerIndex) (request : Request)
    (classified : Operation.classify request.method request.params = operation)
    (renders : Renders operation) (empty : request.body.isEmpty = true) :
    ((∃ outcome, request.inspect index (some context) = .ok outcome) ↔
      Unrepeated request.params ∧
      (request.params.Lacks "SLD" ∧ request.params.Lacks "SLD_BODY") ∧
      ListsPermitted context.roles index request.params operation) ∧
    ∀ outcome, request.inspect index (some context) = .ok outcome →
      outcome = (⟨operation, false⟩, request) := by
  subst classified
  have noDocument : (Operation.classify request.method request.params).isDocument = false ∧
      Operation.classify request.method request.params ≠ .getFeatureKvp := by
    rcases renders with e | e | e <;> rw [e] <;> decide
  constructor
  · have unread : ¬ Check.readsBody request = true := by simp [Check.readsBody, noDocument.1, empty]
    rw [exists_inspect_eq_ok_iff]
    refine and_congr_right fun once => ?_
    rw [and_iff_left fun read => absurd read unread]
    exact parametersAccepted_iff renders once
  · intro outcome h
    obtain ⟨-, params', narrowed, forwarded, rfl⟩ :=
      (Check.eval_request_of_isEmpty rfl noDocument.1 empty).1 (inspect_eq_ok_iff.1 h).2
    rw [ParametersForwarded, if_neg noDocument.2] at forwarded
    obtain ⟨rfl, rfl⟩ := forwarded
    rfl

/-- A request to print one map that shows the given layers. -/
def printRequest (layers : String) : Request where
  method := .get
  params := ⟨[("SERVICE", "WMS"), ("REQUEST", "GetPrint"), ("map0:layers", layers)]⟩
  headers := .empty
  body := .empty
  publicPath := "/city"

/-- The layers of a printed map are looked at, each on its own. -/
theorem inspect_rendering_print :
    (printRequest "roads").inspect (.ofLayers (oneAttribute "name").layers)
        (some (.ofRoles (oneAttribute "name").roles)) =
      .ok (⟨.getPrint, false⟩, printRequest "roads") ∧
    ¬ ∃ outcome, (printRequest "roads, buildings").inspect (.ofLayers (oneAttribute "name").layers)
        (some (.ofRoles (oneAttribute "name").roles)) = .ok outcome := by
  have print (layers : String) :
      Operation.classify (printRequest layers).method (printRequest layers).params = .getPrint := rfl
  have decided (layers : String) := inspect_rendering_exact (.ofRoles (oneAttribute "name").roles)
    (.ofLayers (oneAttribute "name").layers) (printRequest layers) (print layers) (.inr (.inl rfl)) rfl
  constructor
  · have accepted : ∃ outcome, (printRequest "roads").inspect
        (.ofLayers (oneAttribute "name").layers) (some (.ofRoles (oneAttribute "name").roles)) =
          .ok outcome := ⟨_, rfl⟩
    obtain ⟨outcome, h⟩ := accepted
    rw [h, (decided "roads").2 outcome h]
  · intro h
    have lists := ((decided "roads, buildings").1.1 h).2.2
    have named : NamesMapLayers "map0:layers" := ⟨"map0", ":layers", rfl, by decide, rfl⟩
    have buildings := lists ("map0:layers", "roads, buildings") (by simp [printRequest]) .view
      (.printedMap named) "buildings" (by decide)
    exact absurd (has_layerFlags_iff.2 buildings) (Bool.eq_false_iff.1 rfl)

end MapGate
