import Mathlib.Data.List.TakeDrop
import MapGate.Proofs.Url.Authorities
import MapGate.Proofs.Url.Paths

/-!
# URLs read back

The schemes of `hostSchemes` are special and need a host. A URL that was read and has such a
scheme is in normal form (`isNormal_of_ofText?`), and is read back from its text
(`ofText?_render`): the scheme, the authority and the path each end where the next part
starts, query and fragment are cut where they were put together (`splitTail_append`), and
nothing in any of them is left out or encoded again. Another path (`IsNormal.setPath`),
another query (`IsNormal.setQuery`) or the host of another such URL (`IsNormal.moveTo?`)
keeps the form.
-/

namespace MapGate.Url

/-! ## What is left out -/

theorem not_isIgnored_of_lt {c : Char} (h : 0x20 < c.toNat) : (!isIgnored c) = true := by
  have ne : ∀ d : Char, d.toNat ≤ 0x20 → c ≠ d := fun d hd e => by
    rw [e] at h
    omega
  simp [isIgnored, ne '\t' (by decide), ne '\n' (by decide), ne '\r' (by decide)]

theorem dropWhile_outer {l : List Char} (h : ∀ c ∈ l, 0x20 < c.toNat) :
    l.dropWhile (fun c => decide (c.toNat ≤ 0x20)) = l := by
  cases l with
  | nil => rfl
  | cons c l =>
    have := h c List.mem_cons_self
    exact List.dropWhile_cons_of_neg (by simpa using this)

/-- What a text starts with is left as it is, if there are no spaces and control characters
in it. -/
theorem exists_strip_append {front : List Char} (hf : front ≠ []) (h : ∀ c ∈ front, 0x20 < c.toNat)
    (l : List Char) : ∃ rest, (strip (front ++ l)).filter (!isIgnored ·) = front ++ rest := by
  have start : (front ++ l).dropWhile (fun c => decide (c.toNat ≤ 0x20)) = front ++ l := by
    obtain ⟨c, tail, e⟩ := List.exists_cons_of_ne_nil hf
    have := h c (e ▸ List.mem_cons_self)
    rw [e, List.cons_append]
    exact List.dropWhile_cons_of_neg (by simpa using this)
  have kept : front.filter (!isIgnored ·) = front := by
    rw [List.filter_eq_self]
    exact fun c hc => not_isIgnored_of_lt (h c hc)
  have back := dropWhile_outer (l := front.reverse) fun c hc => h c (List.mem_reverse.1 hc)
  rw [strip]
  dsimp only
  rw [start, List.reverse_append, List.dropWhile_append]
  split
  · rw [back, List.reverse_reverse, kept]
    exact ⟨[], (List.append_nil _).symm⟩
  · rw [List.reverse_append, List.reverse_reverse, List.filter_append, kept]
    exact ⟨_, rfl⟩

/-- A text without spaces and control characters is left as it is. -/
theorem strip_eq_self {l : List Char} (h : ∀ c ∈ l, 0x20 < c.toNat) :
    (strip l).filter (!isIgnored ·) = l := by
  have ends := dropWhile_outer (l := l.reverse) fun c hc => h c (List.mem_reverse.1 hc)
  rw [strip]
  dsimp only
  rw [dropWhile_outer h, ends, List.reverse_reverse, List.filter_eq_self]
  exact fun c hc => not_isIgnored_of_lt (h c hc)

/-! ## Schemes -/

/-- The special schemes that need a host. -/
def hostSchemes : List String := ["http", "https", "ws", "wss", "ftp"]

theorem mem_hostSchemes_iff {scheme : String} :
    scheme ∈ hostSchemes ↔ (defaultNumber? scheme).isSome = true := by
  constructor
  · intro h
    have all : ∀ scheme ∈ hostSchemes, (defaultNumber? scheme).isSome = true := by decide
    exact all scheme h
  · intro h
    unfold defaultNumber? at h
    split at h
    all_goals first | decide | cases h

theorem isSpecialScheme_of_mem {scheme : String} (h : scheme ∈ hostSchemes) :
    isSpecialScheme scheme = true := by
  rw [isSpecialScheme, mem_hostSchemes_iff.1 h, Bool.or_true]

theorem ne_file_of_mem {scheme : String} (h : scheme ∈ hostSchemes) : scheme ≠ "file" := by
  rintro rfl
  exact absurd h (by decide)

theorem above_of_mem_scheme {scheme : String} (h : scheme ∈ hostSchemes) :
    ∀ c ∈ scheme.toList, 0x20 < c.toNat := by
  have all : ∀ scheme ∈ hostSchemes, scheme.toList.all (0x20 < ·.toNat) = true := by decide
  exact fun c hc => of_decide_eq_true (List.all_eq_true.1 (all scheme h) c hc)

/-- A scheme is read up to the colon. -/
theorem scheme?_append {scheme : String} (h : scheme ∈ hostSchemes) (rest : List Char) :
    scheme? (scheme.toList ++ ':' :: rest) = some (scheme, rest) := by
  simp only [hostSchemes, List.mem_cons, List.not_mem_nil, or_false] at h
  rcases h with rfl | rfl | rfl | rfl | rfl <;> rfl

/-! ## Normal form -/

/-- A URL with a scheme that needs a host, as it is read. -/
structure IsNormal (url : Url) : Prop where
  scheme : url.scheme ∈ hostSchemes
  authority : ∃ authority, url.authority? = some authority ∧ authority.IsNormal url.scheme
  path : url.path.IsNormal
  query : ∀ query, url.query? = some query → ∀ c ∈ query, keepsInSpecialQuery c = true
  fragment : ∀ fragment, url.fragment? = some fragment → ∀ c ∈ fragment, keepsInFragment c = true

variable {url base : Url}

theorem keepsInSpecialQuery_encodeQuery {scheme : String} (h : scheme ∈ hostSchemes)
    (l : List Char) : ∀ c ∈ encodeQuery scheme l, keepsInSpecialQuery c = true := by
  rw [encodeQuery, if_pos (isSpecialScheme_of_mem h)]
  exact Text.forall_mem_percentEncode (fun _ _ => id) (Text.forall_byte (by decide +kernel))

theorem keepsInFragment_percentEncode (l : List Char) :
    ∀ c ∈ Text.percentEncode keepsInFragment l, keepsInFragment c = true :=
  Text.forall_mem_percentEncode (fun _ _ => id) (Text.forall_byte (by decide +kernel))

theorem scheme_of_fileUrl? {l : List Char} (h : fileUrl? l = some url) : url.scheme = "file" := by
  obtain ⟨⟨host, rest⟩, -, h⟩ := Option.bind_eq_some_iff.1 h
  dsimp only at h
  split at h
  · split at h
    · cases h; rfl
    · cases h; rfl
  · cases h; rfl

/-- Behind a scheme that needs a host there is an authority, and then a path. -/
theorem afterScheme?_of_mem {scheme : String} (h : scheme ∈ hostSchemes) (l : List Char) :
    afterScheme? scheme l =
      (Authority.ofChars? scheme
        ((l.dropWhile (isSlash true)).takeWhile (!endsAuthority true ·))
        ((l.dropWhile (isSlash true)).dropWhile (!endsAuthority true ·)).isEmpty).map
          fun authority => ofParts scheme (some authority) (.ofSpecial false)
            ((l.dropWhile (isSlash true)).dropWhile (!endsAuthority true ·)) := by
  unfold afterScheme?
  simp only [if_neg (ne_file_of_mem h), isSpecialScheme_of_mem h, if_true,
    List.span_eq_takeWhile_dropWhile, Option.map_eq_bind]
  rfl

/-- A URL has the scheme that it was read for. -/
theorem scheme_of_afterScheme? {scheme : String} {l : List Char}
    (h : afterScheme? scheme l = some url) : url.scheme = scheme := by
  unfold afterScheme? at h
  dsimp only at h
  split at h
  · rename_i file
    rw [file, scheme_of_fileUrl? h]
  split at h
  · obtain ⟨authority, -, h⟩ := Option.bind_eq_some_iff.1 h
    cases h
    rfl
  · split at h
    · obtain ⟨authority, -, h⟩ := Option.bind_eq_some_iff.1 h
      cases h
      rfl
    · cases h
      rfl
    · cases h
      rfl

/-- The scheme of a URL that was read is what its text starts with. -/
theorem scheme_of_ofText? {scheme s : String} {l : List Char} (h : scheme ∈ hostSchemes)
    (hs : s.toList = scheme.toList ++ ':' :: l) (hu : ofText? s = some url) :
    url.scheme = scheme := by
  have above : ∀ c ∈ scheme.toList ++ [':'], 0x20 < c.toNat :=
    List.forall_mem_append.2 ⟨above_of_mem_scheme h, List.forall_mem_singleton.2 (by decide)⟩
  obtain ⟨rest, e⟩ := exists_strip_append (List.append_ne_nil_of_right_ne_nil _ (by simp)) above l
  rw [ofText?, hs, ofChars?, List.append_cons, e, ← List.append_cons, scheme?_append h] at hu
  exact scheme_of_afterScheme? hu

/-- A URL that was read is in normal form, if its scheme needs a host. -/
theorem isNormal_of_ofText? {s : String} (h : ofText? s = some url)
    (hs : url.scheme ∈ hostSchemes) : url.IsNormal := by
  obtain ⟨⟨scheme, rest⟩, -, h⟩ := Option.bind_eq_some_iff.1 h
  dsimp only at h
  obtain rfl := scheme_of_afterScheme? h
  rw [afterScheme?_of_mem hs] at h
  obtain ⟨authority, ha, h⟩ := Option.map_eq_some_iff.1 h
  have normal := Authority.isNormal_of_ofChars? (isSpecialScheme_of_mem hs) ha
  generalize (rest.dropWhile (isSlash true)).dropWhile (!endsAuthority true ·) = l at h
  rw [← h]
  refine ⟨hs, ⟨authority, rfl, normal⟩, Path.isNormal_ofSpecial _, fun query hq => ?_,
    fun fragment hf => ?_⟩
  · obtain ⟨raw, -, rfl⟩ := Option.map_eq_some_iff.1 hq
    exact keepsInSpecialQuery_encodeQuery hs raw
  · obtain ⟨raw, -, rfl⟩ := Option.map_eq_some_iff.1 hf
    exact keepsInFragment_percentEncode raw

/-! ## Changing parts -/

theorem IsNormal.setPath (h : url.IsNormal) (path : String) : (url.setPath path).IsNormal := by
  have noFile : (url.scheme == "file") = false := beq_eq_false_iff_ne.2 (ne_file_of_mem h.scheme)
  refine ⟨h.scheme, h.authority, ?_, h.query, h.fragment⟩
  rw [Url.setPath, noFile]
  exact Path.isNormal_ofSpecial _

theorem IsNormal.setQuery (h : url.IsNormal) (query : String) : (url.setQuery query).IsNormal :=
  ⟨h.scheme, h.authority, h.path,
    fun _ hq => Option.some.inj hq ▸ keepsInSpecialQuery_encodeQuery h.scheme _, h.fragment⟩

theorem IsNormal.moveTo? (h : url.IsNormal) (hb : base.IsNormal) :
    ∃ moved, url.moveTo? base = some moved ∧ moved.IsNormal := by
  obtain ⟨authority, ha, normal⟩ := h.authority
  obtain ⟨target, ht, normal'⟩ := hb.authority
  have schemes : ((defaultNumber? url.scheme).isSome && (defaultNumber? base.scheme).isSome) =
      true := by
    rw [mem_hostSchemes_iff.1 h.scheme, mem_hostSchemes_iff.1 hb.scheme]
    rfl
  rw [Url.moveTo?, if_pos schemes, ha, ht]
  exact ⟨_, rfl, hb.scheme, ⟨_, rfl, normal.username, normal.password, normal'.host,
    normal'.number⟩, h.path, h.query, h.fragment⟩

/-! ## Reading back -/

/-- The text of the query, with the question mark in front. -/
def queryChars (url : Url) : List Char :=
  match url.query? with
  | some query => '?' :: query
  | none => []

/-- The text of the fragment, with the number sign in front. -/
def fragmentChars (url : Url) : List Char :=
  match url.fragment? with
  | some fragment => '#' :: fragment
  | none => []

/-- The text behind the scheme. -/
def restChars (url : Url) : List Char :=
  url.renderAuthority ++ (url.path.renderChars ++ (url.queryChars ++ url.fragmentChars))

theorem renderChars_eq (url : Url) :
    url.renderChars = url.scheme.toList ++ ':' :: url.restChars := by
  rw [renderChars, restChars, queryChars, fragmentChars]
  cases url.query? <;> cases url.fragment? <;> simp

theorem renderAuthority_eq {authority : Authority} (ha : url.authority? = some authority) :
    url.renderAuthority = "//".toList ++ authority.renderChars := by
  rw [renderAuthority, ha]

theorem number_notMem_query (h : url.IsNormal) {query : List Char} (hq : url.query? = some query) :
    '#' ∉ query := fun hm => absurd (h.query query hq '#' hm) (by decide)

/-- The path, the query and the fragment are cut where they were put together. -/
theorem splitTail_append (h : url.IsNormal) :
    splitTail (url.path.renderChars ++ (url.queryChars ++ url.fragmentChars)) =
      (url.path.renderChars, url.query?, url.fragment?) := by
  have path : ∀ c ∈ url.path.renderChars, (!(decide (c = '?') || decide (c = '#'))) = true := by
    intro c hc
    have keeps := Path.keeps_renderChars h.path c hc
    have question : c ≠ '?' := fun e => absurd (e ▸ keeps) (by decide)
    have number : c ≠ '#' := fun e => absurd (e ▸ keeps) (by decide)
    simp [question, number]
  rw [splitTail]
  dsimp only
  rw [List.takeWhile_append_of_pos path, List.dropWhile_append_of_pos path, queryChars,
    fragmentChars]
  cases hq : url.query? with
  | none => cases url.fragment? <;> simp [Text.splitFirst?]
  | some query =>
    have number := number_notMem_query h hq
    have whole : ∀ c ∈ query, (!decide (c = '#')) = true := fun c hc => by
      simpa using fun e : c = '#' => number (e ▸ hc)
    have behind : '#' ∉ '?' :: query := fun hm =>
      (List.mem_cons.1 hm).elim (by decide) number
    cases url.fragment? with
    | none => simpa [Text.splitFirst?_eq_none behind] using whole
    | some fragment =>
      have found : Text.splitFirst? '#' ('?' :: (query ++ '#' :: fragment)) =
          some ('?' :: query, fragment) := Text.splitFirst?_append behind
      simp [found, List.takeWhile_append_of_pos whole]

/-- The text of a URL in normal form has no spaces and control characters. -/
theorem above_of_mem_renderChars (h : url.IsNormal) : ∀ c ∈ url.renderChars, 0x20 < c.toNat := by
  obtain ⟨authority, ha, normal⟩ := h.authority
  have fragment : ∀ c, keepsInFragment c = true → 0x20 < c.toNat := fun c hc => by
    have all := forall_graphic (p := fun c => !keepsInFragment c || decide (0x20 < c.toNat))
      (by decide +kernel) (isGraphic_of_keepsInFragment hc)
    simpa [hc] using all
  have query : ∀ c, keepsInSpecialQuery c = true → 0x20 < c.toNat := fun c hc => by
    have graphic := (Bool.and_eq_true_iff.1 (Bool.and_eq_true_iff.1 hc).1).1
    have all := forall_graphic (p := fun c => !keepsInSpecialQuery c || decide (0x20 < c.toNat))
      (by decide +kernel) graphic
    simpa [hc] using all
  have slashes : ∀ c ∈ "//".toList, 0x20 < c.toNat := by simp
  rw [renderChars_eq, restChars, renderAuthority_eq ha]
  refine List.forall_mem_append.2 ⟨above_of_mem_scheme h.scheme, List.forall_mem_cons.2 ⟨by decide,
    List.forall_mem_append.2 ⟨List.forall_mem_append.2 ⟨slashes, fun c hc => ?_⟩,
      List.forall_mem_append.2 ⟨fun c hc => ?_, List.forall_mem_append.2 ⟨?_, ?_⟩⟩⟩⟩⟩
  · have plain := Authority.isAuthorityChar_renderChars normal c hc
    exact of_decide_eq_true (Bool.and_eq_true_iff.1 plain).1
  · exact fragment c (Bool.and_eq_true_iff.1 (Path.keeps_renderChars h.path c hc)).1
  · rw [queryChars]
    split
    · rename_i q hq
      exact List.forall_mem_cons.2 ⟨by decide, fun c hc => query c (h.query q hq c hc)⟩
    · exact List.forall_mem_nil _
  · rw [fragmentChars]
    split
    · rename_i f hf
      exact List.forall_mem_cons.2 ⟨by decide, fun c hc => fragment c (h.fragment f hf c hc)⟩
    · exact List.forall_mem_nil _

/-- Behind the slashes stands the authority, and then what starts with the path. -/
theorem cut_restChars (h : url.IsNormal) {authority : Authority}
    (ha : url.authority? = some authority) (normal : authority.IsNormal url.scheme) :
    (url.restChars.dropWhile (isSlash true)).takeWhile (!endsAuthority true ·) =
        authority.renderChars ∧
      (url.restChars.dropWhile (isSlash true)).dropWhile (!endsAuthority true ·) =
        url.path.renderChars ++ (url.queryChars ++ url.fragmentChars) := by
  have inside : ∀ c ∈ authority.renderChars, (!endsAuthority true c) = true := fun c hc =>
    (Bool.and_eq_true_iff.1 (Authority.isAuthorityChar_renderChars normal c hc)).2
  have slashes : url.restChars.dropWhile (isSlash true) = authority.renderChars ++
      (url.path.renderChars ++ (url.queryChars ++ url.fragmentChars)) := by
    rw [restChars, renderAuthority_eq ha]
    obtain ⟨c, l, e⟩ := List.exists_cons_of_ne_nil (Authority.renderChars_ne_nil normal)
    have first : ¬ isSlash true c = true := fun slash => by
      have := inside c (e ▸ List.mem_cons_self)
      rw [endsAuthority, slash] at this
      cases this
    rw [e]
    exact List.dropWhile_cons_of_neg first
  obtain ⟨l, e⟩ := Path.exists_renderChars_cons h.path
  rw [slashes, List.takeWhile_append_of_pos inside, List.dropWhile_append_of_pos inside, e,
    List.cons_append, List.takeWhile_cons_of_neg (by decide),
    List.dropWhile_cons_of_neg (by decide), List.append_nil]
  exact ⟨rfl, rfl⟩

/-- Query and fragment are not encoded again. -/
theorem encoded_eq_self (h : url.IsNormal) :
    url.query?.map (encodeQuery url.scheme) = url.query? ∧
      url.fragment?.map (Text.percentEncode keepsInFragment) = url.fragment? := by
  constructor
  · refine (Option.map_congr fun query hq => ?_).trans (congrFun Option.map_id _)
    rw [encodeQuery, if_pos (isSpecialScheme_of_mem h.scheme)]
    exact Text.percentEncode_eq_self (h.query query hq)
  · refine (Option.map_congr fun fragment hf => ?_).trans (congrFun Option.map_id _)
    exact Text.percentEncode_eq_self (h.fragment fragment hf)

/-- A URL in normal form is read back from its text. -/
theorem ofText?_render (h : url.IsNormal) : ofText? url.render = some url := by
  obtain ⟨authority, ha, normal⟩ := h.authority
  obtain ⟨before, behind⟩ := cut_restChars h ha normal
  obtain ⟨query, fragment⟩ := encoded_eq_self h
  have special := isSpecialScheme_of_mem h.scheme
  rw [ofText?, render, String.toList_ofList, ofChars?, strip_eq_self (above_of_mem_renderChars h),
    renderChars_eq, scheme?_append h.scheme]
  simp only [Option.bind_eq_bind, Option.bind_some]
  rw [afterScheme?_of_mem h.scheme, before, behind,
    Authority.ofChars?_renderChars special normal, Option.map_some, ofParts, splitTail_append h]
  simp only [query, fragment, Path.ofSpecial_renderChars h.path, ← ha]

end MapGate.Url
