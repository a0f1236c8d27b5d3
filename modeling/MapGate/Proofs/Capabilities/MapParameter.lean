import MapGate.Capabilities.Rewriting
import MapGate.Proofs.Capabilities.Links
import MapGate.Proofs.Text.Replacing
import MapGate.Proofs.Url.Query
import MapGate.Proofs.Url.ReadBack
import MapGate.Service.Config

/-!
# Links without their project

A link of a capability document names the file of the project in its `MAP` parameter. Each
link is one of a web server (`scheme_of_mem_links`), and a public address that a
configuration has was read (`ofText?_of_check`); so the link that is pointed at the gate is
in normal form where the public address has a scheme that needs a host
(`exists_pointAtGate?`), and is read back without `MAP` and with everything else
(`rewriteLink?_exact`). After a public address of another scheme no link is replaced.
-/

namespace MapGate.Capabilities

/-! ## Links -/

/-- A link starts with the scheme of a web server. -/
theorem exists_of_isMapLink {l : List Char} (h : isMapLink l = true) :
    ∃ scheme ∈ Url.hostSchemes, '&' ∉ scheme.toList ∧ ∃ rest, l = scheme.toList ++ ':' :: rest := by
  obtain ⟨start, hs, rest, text⟩ := exists_eq_append_of_isMapLink h
  simp only [List.mem_cons, List.not_mem_nil, or_false] at hs
  rcases hs with rfl | rfl
  · exact ⟨"http", by decide, by decide, "//".toList ++ rest, text⟩
  · exact ⟨"https", by decide, by decide, "//".toList ++ rest, text⟩

/-- The URL that a link stands for is one of a web server. -/
theorem scheme_of_mem_links {document link : String} {url : Url} (hl : link ∈ links document)
    (hu : Url.ofText? (Text.replace "&amp;" "&" link) = some url) :
    url.scheme ∈ Url.hostSchemes := by
  obtain ⟨scheme, hs, plain, rest, text⟩ := exists_of_isMapLink (isLink_of_mem_links hl).map
  have front : '&' ∉ scheme.toList ++ [':'] := by
    rw [List.mem_append, not_or]
    exact ⟨plain, by decide⟩
  have mark : "&amp;".toList = '&' :: "amp;".toList := rfl
  have text' : (Text.replace "&amp;" "&" link).toList =
      scheme.toList ++ ':' :: Text.replaceChars ('&' :: "amp;".toList) ['&'] rest := by
    rw [Text.toList_replace, mark, text, List.append_cons,
      Text.replaceChars_append_of_notMem front, List.append_assoc]
    rfl
  rw [Url.scheme_of_ofText? hs text' hu]
  exact hs

/-! ## The public address -/

/-- The public address of a configuration that was checked was read. -/
theorem ofText?_of_check {config : Config} {settings : GatewaySettings} {base : Url}
    (hs : config.check = .ok settings) (hb : settings.publicBase? = some base) :
    ∃ text, Url.ofText? text = some base := by
  unfold Config.check at hs
  split at hs
  · split at hs
    · cases hp : config.publicBase? with
      | none =>
        rw [hp, Option.mapM_none] at hs
        dsimp only [bind, Except.bind, pure, Except.pure] at hs
        split at hs
        · cases hs
        · cases hs
          cases hb
      | some text =>
        rw [hp, Option.mapM_some] at hs
        cases hu : Url.ofText? text with
        | none =>
          rw [hu] at hs
          cases hs
        | some url =>
          rw [hu] at hs
          dsimp only [bind, Except.bind, pure, Except.pure, Functor.map, Except.map] at hs
          split at hs
          · cases hs
          · cases hs
            cases hb
            exact ⟨text, hu⟩
    · cases hs
  · cases hs

/-! ## Pointing at the gate -/

/-- A public address after which links are replaced: none at all, or one with a scheme that
needs a host. -/
def ServesLinks (base? : Option Url) : Prop :=
  ∀ base, base? = some base → base.scheme ∈ Url.hostSchemes

/-- What a link was replaced by is read as a URL with the parameters of the one that the link
stood for, in their order, but those named `MAP`. -/
def ReadsWithoutMap (url : Url) (replacement : String) : Prop :=
  ∃ url', Url.ofText? (Text.replace "&amp;" "&" replacement) = some url' ∧
    url'.params.pairs = url.params.pairs.filter fun pair => !Text.sameName pair.1 "MAP"

variable {base? : Option Url} {url : Url}

theorem exists_pointAtGate? (hu : url.IsNormal) (hb : ∀ base, base? = some base → base.IsNormal)
    (publicPath : String) :
    ∃ pointed, pointAtGate? base? publicPath url = some pointed ∧ pointed.IsNormal := by
  cases base? with
  | none => exact ⟨_, rfl, hu.setPath publicPath⟩
  | some base =>
    obtain ⟨moved, hm, normal⟩ := hu.moveTo? (hb base rfl)
    rw [pointAtGate?, hm]
    exact ⟨_, rfl, normal.setPath _⟩

theorem pointAtGate?_eq_none {base : Url} (h : base.scheme ∉ Url.hostSchemes)
    (publicPath : String) : pointAtGate? (some base) publicPath url = none := by
  have other : (Url.defaultNumber? base.scheme).isSome = false :=
    Bool.not_eq_true _ ▸ mt Url.mem_hostSchemes_iff.2 h
  have stays : url.moveTo? base = none := by
    rw [Url.moveTo?, other, Bool.and_false, if_neg Bool.false_ne_true]
  rw [pointAtGate?, stays, Option.map_none]

/-- A URL in normal form that is written into a document and has new parameters is read with
these. -/
theorem readsBack (h : url.IsNormal) (params : Params) :
    ∃ url', Url.ofText? (Text.replace "&amp;" "&"
        (Text.replace "&" "&amp;" (url.setQuery params.toQuery).render)) = some url' ∧
      url'.params = params := by
  have sign : "&".toList = ['&'] := rfl
  have mark : "&amp;".toList = '&' :: "amp;".toList := rfl
  have escaped := Text.replace_replace sign mark (url.setQuery params.toQuery).render
  refine ⟨url.setQuery params.toQuery, ?_, Url.params_setQuery url params⟩
  rw [escaped, Url.ofText?_render (h.setQuery _)]

/-- Each link of a document that can be read is replaced by one without `MAP`, which is the
same in all other parameters, exactly if the public address is one after which links are
replaced. -/
theorem rewriteLink?_exact {config : Config} {settings : GatewaySettings} {document link : String}
    (hs : config.check = .ok settings) (hl : link ∈ links document)
    (hu : Url.ofText? (Text.replace "&amp;" "&" link) = some url) (publicPath : String) :
    (ServesLinks settings.publicBase? → ∃ replacement,
        rewriteLink? settings.publicBase? publicPath link = some replacement ∧
          ReadsWithoutMap url replacement) ∧
      (¬ ServesLinks settings.publicBase? →
        rewriteLink? settings.publicBase? publicPath link = none) := by
  constructor
  · intro serves
    have normal := Url.isNormal_of_ofText? hu (scheme_of_mem_links hl hu)
    have address : ∀ base, settings.publicBase? = some base → base.IsNormal := fun base hb => by
      obtain ⟨text, read⟩ := ofText?_of_check hs hb
      exact Url.isNormal_of_ofText? read (serves base hb)
    obtain ⟨pointed, hp, normal'⟩ := exists_pointAtGate? normal address publicPath
    obtain ⟨url', read, params⟩ := readsBack normal' (url.params.remove "MAP")
    refine ⟨_, ?_, url', read, congrArg Params.pairs params⟩
    simp only [rewriteLink?, hu, hp, Option.bind_eq_bind, Option.bind_some]
  · intro refuses
    obtain ⟨base, hb, other⟩ : ∃ base, settings.publicBase? = some base ∧
        base.scheme ∉ Url.hostSchemes := by
      simpa [ServesLinks] using refuses
    rw [hb]
    simp only [rewriteLink?, hu, pointAtGate?_eq_none other, Option.bind_eq_bind, Option.bind_some,
      Option.bind_none]

/-- A link of the renderer, with the file of the project. -/
def cityLink : String := "http://renderer:8080/ows?MAP=/srv/projects/a/b/city.qgs&amp;SERVICE=WMS"

/-- A document with this link. -/
def cityDocument : String := "<a xlink:href=\"" ++ cityLink ++ "\"/>"

/-- The URL that the link stands for. -/
def cityUrl : Url where
  scheme := "http"
  authority? := some ⟨[], [], .name "renderer".toList, some 8080⟩
  path := .segments ["ows".toList]
  query? := some "MAP=/srv/projects/a/b/city.qgs&SERVICE=WMS".toList
  fragment? := none

/-- A configuration with a public address, and everything else as by default. -/
def publicConfig (base : String) : Config := { publicBase? := some base }

theorem exists_check_publicConfig {base : String} {url : Url} (h : Url.ofText? base = some url) :
    ∃ settings, (publicConfig base).check = .ok settings ∧ settings.publicBase? = some url := by
  obtain ⟨renderer, hr⟩ := Option.isSome_iff_exists.1
    (by decide +kernel : (Url.ofText? "http://127.0.0.1:8080/ows").isSome = true)
  obtain ⟨header, hh⟩ := Option.isSome_iff_exists.1
    (by decide +kernel : (HeaderName.ofText? (Text.trim HeaderName.user.text)).isSome = true)
  refine ⟨⟨⟨renderer, "/srv/projects", header⟩, some url, 10485760, 60⟩, ?_, rfl⟩
  simp only [Config.check, publicConfig, hr, hh, Option.mapM_some, h]
  rfl

theorem cityLink_mem_links : cityLink ∈ links cityDocument := by decide +kernel

theorem ofText?_cityLink : Url.ofText? (Text.replace "&amp;" "&" cityLink) = some cityUrl := by
  decide +kernel

theorem rewriteLink?_exact_cityLink : ∃ settings,
    (publicConfig "https://maps.example.com/gis/").check = .ok settings ∧
      ServesLinks settings.publicBase? ∧ ∃ replacement,
        rewriteLink? settings.publicBase? "/ows/a/b" cityLink = some replacement ∧
          ReadsWithoutMap cityUrl replacement := by
  let base : Url := ⟨"https", some ⟨[], [], .name "maps.example.com".toList, none⟩,
    .segments ["gis".toList, []], none, none⟩
  have read : Url.ofText? "https://maps.example.com/gis/" = some base := by decide +kernel
  obtain ⟨settings, check, address⟩ := exists_check_publicConfig read
  have serves : ServesLinks settings.publicBase? := by
    rw [address]
    rintro _ ⟨⟩
    decide
  exact ⟨settings, check, serves,
    (rewriteLink?_exact check cityLink_mem_links ofText?_cityLink "/ows/a/b").1 serves⟩

/-- After a public address with a scheme of its own the link is not replaced, and the
document is left with the file of the project in it. -/
theorem cityLink_kept : ∃ settings,
    (publicConfig "gis://maps.example.com/").check = .ok settings ∧
      cityLink ∈ links cityDocument ∧
      Url.ofText? (Text.replace "&amp;" "&" cityLink) = some cityUrl ∧
      rewriteLink? settings.publicBase? "/ows/a/b" cityLink = none ∧
      rewrite? settings.publicBase? "/ows/a/b" cityDocument = none := by
  let base : Url := ⟨"gis", some ⟨[], [], .name "maps.example.com".toList, none⟩,
    .segments [[]], none, none⟩
  have read : Url.ofText? "gis://maps.example.com/" = some base := by decide +kernel
  obtain ⟨settings, check, address⟩ := exists_check_publicConfig read
  have kept : rewriteLink? (some base) "/ows/a/b" cityLink = none := by decide +kernel
  have only : ordered (links cityDocument) = [cityLink] := by
    have found : links cityDocument = [cityLink] := by decide +kernel
    simp [found, ordered, List.eraseReps, List.eraseRepsBy, List.eraseRepsBy.loop]
  refine ⟨settings, check, cityLink_mem_links, ofText?_cityLink, ?_, ?_⟩
  · rw [address, kept]
  · have same : changes (rewriteLink? (some base) "/ows/a/b") [cityLink] = [] := by
      simp only [changes, List.filterMap_cons, kept, List.filterMap_nil]
    rw [address, rewrite?, substitute?, only, same]
    rfl

end MapGate.Capabilities
