import Esr.UriWritten

/-! # Building and parsing

Six builders, three in each language, and the parsers of both.  A resource is read back
by `parse_resource`, everything else by `parse`; an input makes the round trip if what
its builder wrote is read back, in both languages, as the components that were given.
These are taken as the builders define them: an extension in lower case, an empty
organisation as none, and the value of a parameter as its text.

The builders check little of what the parsers cut at.  `roundTrips_iff` says which
inputs make the round trip: those whose parts have no separators, whose type both sides
know, and whose digest ends where it should.
-/
namespace Esr

/-- The names of an organisation that were given, under `org` or its alias. -/
def givenNames (org env : Option String) : List String :=
  (org.toList ++ env.toList).filter fun o => o ≠ ""

/-- The organisation that Elixir writes: `org || env`. -/
def Uri.written (org env : Option String) : Option String := (org.or env).filter fun o => o ≠ ""

/-- The organisation that Python writes: `env or org`. -/
def PyUri.written (org env : Option String) : Option String :=
  (PyUri.orgArg org env).filter fun o => o ≠ ""

/-- What a builder of resources was given. -/
structure GivenResource where
  mediaType : String
  sha256 : String
  ext : String
  orgs : List String
  host : String

/-- The components that such a URI has. -/
def GivenResource.given (g : GivenResource) : Given :=
  { orgs := g.orgs, host := g.host, port := none
    segments := ["resources", g.mediaType, g.sha256 ++ "." ++ lowerAscii g.ext], rows := [] }

/-- The resource has the components that were given. -/
structure Uri.ReturnsResource (g : GivenResource) (r : Uri.Resource) : Prop where
  mediaType : r.mediaType = g.mediaType
  sha256 : r.sha256 = g.sha256
  ext : r.ext = lowerAscii g.ext
  env : OrgIs g.orgs r.env
  host : r.host = g.host

/-- The resource has the components that were given. -/
structure PyUri.ReturnsResource (g : GivenResource) (r : PyUri.ParsedResource) : Prop where
  mediaType : r.mediaType = g.mediaType
  sha256 : r.sha256 = g.sha256
  ext : r.ext = lowerAscii g.ext
  env : OrgIs g.orgs r.env
  host : r.host = g.host

/-- **Both readers of resources give back** what was given. -/
def ResourceBack (g : GivenResource) (s : String) : Prop :=
  (∃ r, Uri.parseResource s = .ok r ∧ Uri.ReturnsResource g r) ∧
    ∃ r, PyUri.parseResource s = .ok r ∧ PyUri.ReturnsResource g r

/-- A builder and its arguments. -/
inductive Input where
  | exBuild (type id host : String) (opts : Uri.Opts)
  | exBuildPath (segments : List String) (host : String) (opts : Uri.Opts)
  | exBuildResource (mediaType sha256 : String) (opts : Uri.ResourceOpts)
  | pyBuild (type id host : String) (port : Option Int) (org : Option String)
      (params : PyUri.Params)
  | pyBuildPath (segments : List String) (host : String) (port : Option Int)
      (org env : Option String) (params : PyUri.Params)
  | pyBuildResource (mediaType sha256 ext : String) (env : Option String) (host : String)

namespace Input

/-- The text that is built, if the builder accepts its arguments. -/
def built : Input → Option String
  | exBuild type id host opts => (Uri.build type id host opts).toOption
  | exBuildPath segments host opts => (Uri.buildPath segments host opts).toOption
  | exBuildResource mediaType sha256 opts => (Uri.buildResource mediaType sha256 opts).toOption
  | pyBuild type id host port org params => (PyUri.build type id host port org params).toOption
  | pyBuildPath segments host port org env params =>
      (PyUri.buildPath segments host port org env params).toOption
  | pyBuildResource mediaType sha256 ext env host =>
      (PyUri.buildResource mediaType sha256 ext env host).toOption

/-- **The round trip**: the text is read back as what was given. -/
def RoundTrips (s : String) : Input → Prop
  | exBuild type id host opts =>
      ReadBack ⟨givenNames opts.org opts.env, host, none, [type, id], []⟩ s
  | exBuildPath segments host opts =>
      ReadBack ⟨givenNames opts.org opts.env, host, none, segments, []⟩ s
  | exBuildResource mediaType sha256 opts =>
      ResourceBack ⟨mediaType, sha256, opts.ext, givenNames none opts.env, opts.host⟩ s
  | pyBuild type id host port org params =>
      ReadBack ⟨givenNames org none, host, port, [type, id], params.rows⟩ s
  | pyBuildPath segments host port org env params =>
      ReadBack ⟨givenNames org env, host, port, segments, params.rows⟩ s
  | pyBuildResource mediaType sha256 ext env host =>
      ResourceBack ⟨mediaType, sha256, ext, givenNames none env, host⟩ s

/-- **The inputs that make the round trip.**  What no builder checks is an authority
without separators, segments without separators and of a known type, and values that
are texts; Python's regular expression lets a digest end in a newline. -/
def Plain : Input → Prop
  | exBuild type id host opts =>
      PlainAuthority (givenNames opts.org opts.env) (Uri.written opts.org opts.env) host ∧
        PlainSegments [type, id]
  | exBuildPath segments host opts =>
      PlainAuthority (givenNames opts.org opts.env) (Uri.written opts.org opts.env) host ∧
        PlainSegments segments
  | exBuildResource _ _ opts =>
      PlainAuthority (givenNames none opts.env) (Uri.written none opts.env) opts.host
  | pyBuild type id host _ org params =>
      PlainAuthority (givenNames org none) (PyUri.written org none) host ∧
        PlainSegments [type, id] ∧ TextRows params.rows
  | pyBuildPath segments host _ org env params =>
      PlainAuthority (givenNames org env) (PyUri.written org env) host ∧
        PlainSegments segments ∧ TextRows params.rows
  | pyBuildResource _ sha256 _ env host =>
      PlainAuthority (givenNames none env) (PyUri.written none env) host ∧
        '\n' ∉ sha256.toList

end Input

/-! ## What the builders write -/

theorem Uri.mem_written {org env : Option String} {o : String} (h : Uri.written org env = some o) :
    o ∈ givenNames org env := by
  obtain ⟨hsome, hne⟩ := Option.filter_eq_some_iff.mp h
  refine List.mem_filter.mpr ⟨?_, hne⟩
  cases org with
  | none => exact List.mem_append_right _ (Option.mem_toList.mpr hsome)
  | some x => exact List.mem_append_left _ (Option.mem_toList.mpr hsome)

theorem PyUri.mem_written {org env : Option String} {o : String}
    (h : PyUri.written org env = some o) : o ∈ givenNames org env := by
  obtain ⟨hsome, hne⟩ := Option.filter_eq_some_iff.mp h
  refine List.mem_filter.mpr ⟨?_, hne⟩
  unfold PyUri.orgArg at hsome
  cases env with
  | none => exact List.mem_append_left _ (Option.mem_toList.mpr hsome)
  | some e =>
    dsimp only at hsome
    split at hsome
    · exact List.mem_append_left _ (Option.mem_toList.mpr hsome)
    · exact List.mem_append_right _ (Option.mem_toList.mpr hsome)

theorem filter_ne_some_empty (org : Option String) :
    org.filter (fun o => o ≠ "") ≠ some "" := by
  intro h
  exact absurd (Option.filter_eq_some_iff.mp h).2 (by decide)

theorem Uri.authority_eq (host : String) (opts : Uri.Opts) :
    Uri.authority host opts = authText (Uri.written opts.org opts.env) host none := by
  have hport : portSuffix none = "" := rfl
  unfold Uri.authority Uri.written authText
  rw [hport, String.append_empty]
  cases opts.org.or opts.env with
  | none => rfl
  | some o =>
    dsimp only
    by_cases ho : o = ""
    · rw [if_pos ho, Option.filter_some, if_neg (by simpa using ho)]
    · rw [if_neg ho, Option.filter_some, if_pos (by simpa using ho)]

theorem PyUri.withOrg_eq (org : Option String) (host : String) (port : Option Int) :
    PyUri.withOrg org (host ++ portSuffix port) =
      authText (org.filter fun o => o ≠ "") host port := by
  unfold PyUri.withOrg authText
  cases org with
  | none => rfl
  | some o =>
    dsimp only
    by_cases ho : o = ""
    · rw [if_pos ho, Option.filter_some, if_neg (by simpa using ho)]
    · rw [if_neg ho, Option.filter_some, if_pos (by simpa using ho)]

theorem PyUri.authorityText_eq {host a : String} {port : Option Int} {org : Option String}
    (h : PyUri.authorityText host port org = .ok a) :
    a = authText (org.filter fun o => o ≠ "") host port ∧
      ∀ n, port = some n → digitCount n.repr ≤ maxStrDigits := by
  unfold PyUri.authorityText at h
  cases port with
  | none =>
    refine ⟨?_, fun n hn => ?_⟩
    · rw [← PyUri.withOrg_eq, portSuffix, Option.map_none, Option.getD_none, String.append_empty]
      exact (Except.ok.inj h).symm
    · cases hn
  | some p =>
    unfold PyUri.portText at h
    dsimp only at h
    by_cases hlen : digitCount p.repr ≤ maxStrDigits
    · rw [if_pos hlen] at h
      refine ⟨?_, fun n hn => Option.some.inj hn ▸ hlen⟩
      rw [← PyUri.withOrg_eq, portSuffix, Option.map_some, Option.getD_some, ← String.append_assoc]
      exact (Except.ok.inj h).symm
    · rw [if_neg hlen] at h
      cases h

theorem Given.text_eq (g : Given) (org : Option String) : (g.pieces org).text =
    "esr://" ++ (authText org g.host g.port ++ "/" ++ ("/".intercalate g.segments ++
      ((writtenQuery g.rows).map fun q => "?" ++ q).getD "")) := rfl

theorem PyUri.queryText_eq (params : PyUri.Params) : PyUri.queryText params =
    ((writtenQuery params.rows).map fun q => "?" ++ q).getD "" := by
  have hrows : params.rows = [] ↔ params.items = [] := List.map_eq_nil_iff
  unfold PyUri.queryText writtenQuery
  by_cases hnil : params.items = []
  · rw [if_pos hnil, if_pos (hrows.mpr hnil)]
    rfl
  · rw [if_neg hnil, if_neg (mt hrows.mp hnil)]
    rfl

theorem intercalate_pair (type id : String) : "/".intercalate [type, id] = type ++ "/" ++ id := rfl

theorem Uri.of_build {type id host s : String} {opts : Uri.Opts}
    (h : Uri.build type id host opts = .ok s) :
    s = (Given.pieces ⟨givenNames opts.org opts.env, host, none, [type, id], []⟩
      (Uri.written opts.org opts.env)).text := by
  unfold Uri.build at h
  split at h
  · rw [← Except.ok.inj h, Given.text_eq, intercalate_pair, Uri.authority_eq]
    have hquery : ((writtenQuery []).map fun q => "?" ++ q).getD "" = "" := rfl
    rw [hquery, String.append_empty]
    simp only [String.append_assoc]
  · cases h

theorem Uri.of_buildPath {segments : List String} {host s : String} {opts : Uri.Opts}
    (h : Uri.buildPath segments host opts = .ok s) :
    s = (Given.pieces ⟨givenNames opts.org opts.env, host, none, segments, []⟩
      (Uri.written opts.org opts.env)).text := by
  have hquery : ((writtenQuery []).map fun q => "?" ++ q).getD "" = "" := rfl
  unfold Uri.buildPath at h
  split at h
  · split at h
    · rw [← Except.ok.inj h, Given.text_eq, hquery, String.append_empty, Uri.authority_eq]
      simp only [String.append_assoc]
    · cases h
  · cases h

theorem PyUri.of_build {type id host s : String} {port : Option Int} {org : Option String}
    {params : PyUri.Params} (h : PyUri.build type id host port org params = .ok s) :
    s = (Given.pieces ⟨givenNames org none, host, port, [type, id], params.rows⟩
      (PyUri.written org none)).text ∧ ∀ n, port = some n → digitCount n.repr ≤ maxStrDigits := by
  unfold PyUri.build at h
  split_ifs at h
  cases ha : PyUri.authorityText host port org with
  | error e =>
    rw [ha] at h
    cases h
  | ok a =>
    rw [ha] at h
    obtain ⟨rfl, hport⟩ := PyUri.authorityText_eq ha
    refine ⟨?_, hport⟩
    rw [← Except.ok.inj h, Given.text_eq, intercalate_pair, ← PyUri.queryText_eq]
    simp only [String.append_assoc]
    rfl

theorem PyUri.of_buildPath {segments : List String} {host s : String} {port : Option Int}
    {org env : Option String} {params : PyUri.Params}
    (h : PyUri.buildPath segments host port org env params = .ok s) :
    s = (Given.pieces ⟨givenNames org env, host, port, segments, params.rows⟩
      (PyUri.written org env)).text ∧ ∀ n, port = some n → digitCount n.repr ≤ maxStrDigits := by
  unfold PyUri.buildPath at h
  split at h
  · split_ifs at h
    split at h
    · cases h
    · cases ha : PyUri.authorityText host port (PyUri.orgArg org env) with
      | error e =>
        rw [ha] at h
        cases h
      | ok a =>
        rw [ha] at h
        obtain ⟨rfl, hport⟩ := PyUri.authorityText_eq ha
        refine ⟨?_, hport⟩
        rw [← Except.ok.inj h, Given.text_eq, ← PyUri.queryText_eq]
        simp only [String.append_assoc]
        rfl
  · cases h

/-! ## URIs -/

theorem PyUri.Params.nodup_rows (params : PyUri.Params) : (params.rows.map Prod.fst).Nodup := by
  have hnames : params.rows.map Prod.fst =
      (params.items.map Prod.fst).map fun k => bytesOf k.toList := by
    unfold PyUri.Params.rows
    rw [List.map_map, List.map_map]
    rfl
  rw [hnames]
  refine params.nodup.map fun a b hab => ?_
  exact String.toList_inj.mp (bytesOf_injective hab)

theorem readBack_iff {g : Given} {org : Option String} (hfrom : ∀ o, org = some o → o ∈ g.orgs)
    (horg : org ≠ some "") (hport : ∀ n, g.port = some n → digitCount n.repr ≤ maxStrDigits)
    (hnodup : (g.rows.map Prod.fst).Nodup) : ReadBack g (g.pieces org).text ↔
      PlainAuthority g.orgs org g.host ∧ PlainSegments g.segments ∧ TextRows g.rows :=
  ⟨plain_of_readBack hfrom, fun h => readBack_of_plain hport horg hnodup h.1 h.2.1 h.2.2⟩

theorem Uri.readBack_iff {org env : Option String} {host : String} {segments : List String} :
    ReadBack ⟨givenNames org env, host, none, segments, []⟩
        (Given.pieces ⟨givenNames org env, host, none, segments, []⟩ (Uri.written org env)).text ↔
      PlainAuthority (givenNames org env) (Uri.written org env) host ∧ PlainSegments segments := by
  have hrows : TextRows [] := fun r hr => by cases hr
  have hport : ∀ n, (none : Option Int) = some n → digitCount n.repr ≤ maxStrDigits :=
    fun n hn => by cases hn
  have hback := Esr.readBack_iff (g := ⟨givenNames org env, host, none, segments, []⟩)
    (fun o ho => Uri.mem_written ho) (filter_ne_some_empty _) hport List.nodup_nil
  exact hback.trans (and_congr_right fun _ => and_iff_left hrows)

/-! ## Resources -/

/-- No character that a reader of resources cuts at. -/
def plainChar (c : Char) : Bool := c ≠ '/' && c ≠ '?' && c ≠ '.'

theorem plainChar_iff {c : Char} : plainChar c = true ↔ c ≠ '/' ∧ c ≠ '?' ∧ c ≠ '.' := by
  simp [plainChar, and_assoc]

theorem allowedExts_plain : Uri.allowedExts.all (fun p =>
    p.1 ≠ "" && p.1.toList.all plainChar && p.2.all fun e => e.toList.all plainChar) = true := by
  decide +kernel

theorem plain_of_lookup {mediaType : String} {exts : List String}
    (h : Uri.allowedExts.lookup mediaType = some exts) :
    mediaType ∈ PyUri.mediaTypes ∧ mediaType ≠ "" ∧
      (∀ c ∈ mediaType.toList, plainChar c = true) ∧
        ∀ e ∈ exts, ∀ c ∈ e.toList, plainChar c = true := by
  obtain ⟨l₁, l₂, hlist, -⟩ := List.lookup_eq_some_iff.mp h
  have hmem : (mediaType, exts) ∈ Uri.allowedExts := by
    rw [hlist]
    exact List.mem_append_right _ List.mem_cons_self
  have hfacts := List.all_eq_true.mp allowedExts_plain _ hmem
  rw [Bool.and_eq_true, Bool.and_eq_true, decide_eq_true_eq, List.all_eq_true,
    List.all_eq_true] at hfacts
  obtain ⟨⟨hne, htype⟩, hexts⟩ := hfacts
  exact ⟨List.mem_map.mpr ⟨_, hmem, rfl⟩, hne, htype, fun e he c hc =>
    List.all_eq_true.mp (hexts e he) c hc⟩

/-- A digit of a digest. -/
def hexLower (c : Char) : Bool := c.isDigit || ('a' ≤ c && c ≤ 'f')

theorem hexLower_iff {c : Char} : hexLower c = true ↔
    (48 ≤ c.toNat ∧ c.toNat ≤ 57) ∨ (97 ≤ c.toNat ∧ c.toNat ≤ 102) := by
  rw [hexLower, Bool.or_eq_true, isDigit_iff, Bool.and_eq_true, decide_eq_true_eq,
    decide_eq_true_eq]
  rfl

theorem plainChar_of_hexLower {c : Char} (h : hexLower c = true) : plainChar c = true := by
  rw [plainChar_iff]
  refine ⟨?_, ?_, ?_⟩ <;>
  · rintro rfl
    cases h

theorem hexLower_newline : hexLower '\n' = false := rfl

section
variable {sha : String} (h : sha256Pattern sha = true)
include h

theorem sha256Pattern_cases : sha.toList.length = 64 ∧ (∀ c ∈ sha.toList, hexLower c = true) ∨
    ∃ ds, sha.toList = ds ++ ['\n'] ∧ ds.length = 64 ∧ ∀ c ∈ ds, hexLower c = true := by
  unfold sha256Pattern chompNewline at h
  rw [Bool.and_eq_true, decide_eq_true_eq, List.all_eq_true] at h
  split at h
  · rename_i hlast
    refine .inr ⟨sha.toList.dropLast, ?_, h.1, h.2⟩
    exact (List.dropLast_append_getLast? _ hlast).symm
  · exact .inl h

theorem sha256Pattern_plain : ∀ c ∈ sha.toList, plainChar c = true := by
  intro c hc
  rcases sha256Pattern_cases h with ⟨-, hall⟩ | ⟨ds, hs, -, hall⟩
  · exact plainChar_of_hexLower (hall c hc)
  · rw [hs] at hc
    rcases List.mem_append.mp hc with hc | hc
    · exact plainChar_of_hexLower (hall c hc)
    · obtain rfl := List.mem_singleton.mp hc
      rfl

theorem validateSha256_iff : Uri.validateSha256 sha = true ↔ '\n' ∉ sha.toList := by
  have hascii : ∀ c : Char, hexLower c = true → c.toNat < 128 := by
    intro c hc
    rcases hexLower_iff.mp hc with hc | hc <;> omega
  unfold Uri.validateSha256
  rw [h, Bool.and_true, decide_eq_true_eq]
  rcases sha256Pattern_cases h with ⟨hlen, hall⟩ | ⟨ds, hs, hlen, hall⟩
  · rw [length_bytesOf_ascii fun c hc => hascii c (hall c hc)]
    refine iff_of_true hlen fun hmem => ?_
    have hnew := hall _ hmem
    rw [hexLower_newline] at hnew
    cases hnew
  · rw [hs, length_bytesOf_ascii]
    · simp [hlen]
    · intro c hc
      rcases List.mem_append.mp hc with hc | hc
      · exact hascii c (hall c hc)
      · obtain rfl := List.mem_singleton.mp hc
        decide

end

theorem rsplit1_append {ext : String} (h : '.' ∉ ext.toList) (sha : String) :
    PyUri.rsplit1 '.' (sha ++ "." ++ ext) = (sha, ext) := by
  have hcut : cutAt '.' (sha ++ "." ++ ext).toList.reverse =
      some (ext.toList.reverse, sha.toList.reverse) := by
    rw [cutAt_eq_some]
    exact ⟨by simp, by simpa using h⟩
  unfold PyUri.rsplit1
  rw [hcut]
  simp

/-- A resource that is allowed: Python's expression matches the digest, and the media
type has the extension. -/
structure Allowed (g : GivenResource) : Prop where
  sha256 : sha256Pattern g.sha256 = true
  ext : ∃ exts, Uri.allowedExts.lookup g.mediaType = some exts ∧ lowerAscii g.ext ∈ exts

section
variable {g : GivenResource} (h : Allowed g)
include h

theorem Allowed.segments : PlainSegments g.given.segments := by
  obtain ⟨exts, hlookup, hmem⟩ := h.ext
  obtain ⟨-, hne, htype, hexts⟩ := plain_of_lookup hlookup
  have hsep : ∀ {c}, plainChar c = true → c ≠ '/' ∧ c ≠ '?' := fun hc =>
    ⟨(plainChar_iff.mp hc).1, (plainChar_iff.mp hc).2.1⟩
  refine ⟨⟨?_, ?_, ?_⟩, fun seg hseg => ?_⟩
  · exact Nat.le_succ 2
  · show "resources" ∈ PyUri.validTypes
    decide
  · intro hlegacy
    exact absurd (show "resources" ∈ PyUri.legacyTypes from hlegacy) (by decide)
  · simp only [GivenResource.given, List.mem_cons, List.not_mem_nil, or_false] at hseg
    rcases hseg with rfl | rfl | rfl
    · exact ⟨by decide, fun c hc => hsep (List.all_eq_true.mp (by decide) c hc)⟩
    · exact ⟨hne, fun c hc => hsep (htype c hc)⟩
    · refine ⟨fun hempty => ?_, fun c hc => ?_⟩
      · have hchars := congrArg String.toList hempty
        simp at hchars
      · rw [String.toList_append, String.toList_append] at hc
        rcases List.mem_append.mp hc with hc | hc
        · rcases List.mem_append.mp hc with hc | hc
          · exact hsep (sha256Pattern_plain h.sha256 c hc)
          · obtain rfl : c = '.' := List.mem_singleton.mp hc
            decide
        · exact hsep (hexts _ hmem c hc)

theorem Allowed.parseResource_exSegments {s : String} {u : Uri.Parsed}
    (hnew : '\n' ∉ g.sha256.toList) (hu : Uri.parse s = .ok u) (htype : u.type = "resources")
    (hsegments : u.segments = ["resources", g.mediaType, g.sha256 ++ "." ++ lowerAscii g.ext]) :
    Uri.parseResource s = .ok ⟨g.mediaType, g.sha256, lowerAscii g.ext, u.org, u.host⟩ := by
  obtain ⟨exts, hlookup, hmem⟩ := h.ext
  have hdot : '.' ∉ g.sha256.toList := fun hc =>
    (plainChar_iff.mp (sha256Pattern_plain h.sha256 _ hc)).2.2 rfl
  have hsplit : splitParts2 '.' (g.sha256 ++ "." ++ lowerAscii g.ext) =
      [g.sha256, lowerAscii g.ext] := splitParts2_eq_pair.mpr ⟨rfl, hdot⟩
  have hsha : Uri.validateSha256 g.sha256 = true := (validateSha256_iff h.sha256).mpr hnew
  have hlower : Uri.downcase (lowerAscii g.ext) = lowerAscii g.ext := lowerAscii_lowerAscii g.ext
  have hext : Uri.validateExt g.mediaType (lowerAscii g.ext) = true := by
    unfold Uri.validateExt
    rw [hlookup, hlower]
    exact List.contains_iff_mem.mpr hmem
  unfold Uri.parseResource
  rw [hu]
  dsimp only
  rw [if_pos htype, hsegments]
  dsimp only
  rw [hsplit]
  dsimp only
  rw [hsha, hlower, hext]
  rfl

theorem Allowed.parseResource_ex {s : String} {u : Uri.Parsed} (hnew : '\n' ∉ g.sha256.toList)
    (hu : Uri.parse s = .ok u) (hback : Uri.Returns g.given u) :
    ∃ r, Uri.parseResource s = .ok r ∧ Uri.ReturnsResource g r :=
  ⟨_, h.parseResource_exSegments hnew hu hback.type hback.segments,
    ⟨rfl, rfl, rfl, hback.org, hback.host⟩⟩

theorem Allowed.parseResource_pySegments {s : String} {v : PyUri.EsrURI}
    (hv : PyUri.parse s = .ok v) (htype : v.type = "resources")
    (hsegments : v.segments = ["resources", g.mediaType, g.sha256 ++ "." ++ lowerAscii g.ext]) :
    PyUri.parseResource s = .ok ⟨g.mediaType, g.sha256, lowerAscii g.ext, v.org, v.host⟩ := by
  obtain ⟨exts, hlookup, hmem⟩ := h.ext
  obtain ⟨hmedia, -, -, hexts⟩ := plain_of_lookup hlookup
  have hdot : '.' ∉ (lowerAscii g.ext).toList := fun hc =>
    (plainChar_iff.mp (hexts _ hmem _ hc)).2.2 rfl
  have hhas : '.' ∈ (g.sha256 ++ "." ++ lowerAscii g.ext).toList := by simp
  have hlower : PyUri.lower (lowerAscii g.ext) = lowerAscii g.ext := lowerAscii_lowerAscii g.ext
  have hsame : PyUri.allowedExts.lookup g.mediaType = some exts := hlookup
  have hsha : PyUri.shaMatches g.sha256 = true := h.sha256
  unfold PyUri.parseResource
  rw [hv]
  show (if v.type ≠ "resources" then _ else _) = _
  rw [if_neg (not_not_intro htype), hsegments]
  dsimp only
  rw [if_neg (not_not_intro hmedia), if_neg (not_not_intro hhas), rsplit1_append hdot]
  dsimp only
  rw [hsha, hlower, hsame, Option.getD_some, if_neg (not_not_intro hmem)]
  rfl

theorem Allowed.parseResource_py {s : String} {v : PyUri.EsrURI} (hv : PyUri.parse s = .ok v)
    (hback : PyUri.Returns g.given v) :
    ∃ r, PyUri.parseResource s = .ok r ∧ PyUri.ReturnsResource g r :=
  ⟨_, h.parseResource_pySegments hv hback.type hback.segments,
    ⟨rfl, rfl, rfl, hback.org, hback.host⟩⟩

end

theorem PyUri.of_parseResource {s : String} {r : PyUri.ParsedResource}
    (h : PyUri.parseResource s = .ok r) :
    ∃ v, PyUri.parse s = .ok v ∧ v.org = r.env ∧ v.host = r.host := by
  unfold PyUri.parseResource at h
  cases hv : PyUri.parse s with
  | error e =>
    rw [hv] at h
    cases h
  | ok v =>
    rw [hv] at h
    change (if v.type ≠ "resources" then _ else _) = _ at h
    refine ⟨v, rfl, ?_⟩
    split_ifs at h
    split at h
    · dsimp only at h
      split_ifs at h
      rw [← Except.ok.inj h]
      exact ⟨rfl, rfl⟩
    · cases h

theorem Uri.sha256_of_parseResource {s : String} {r : Uri.Resource}
    (h : Uri.parseResource s = .ok r) : Uri.validateSha256 r.sha256 = true := by
  unfold Uri.parseResource at h
  split at h
  · cases h
  · split_ifs at h
    split at h
    · split at h
      · split_ifs at h with hsha
        rw [← Except.ok.inj h]
        simpa using hsha
      · cases h
    · cases h

/-- A resource that is allowed is read back from an authority without separators, where
its digest ends in no newline. -/
theorem resourceBack_iff {g : GivenResource} {org : Option String} (h : Allowed g)
    (hfrom : ∀ o, org = some o → o ∈ g.orgs) (horg : org ≠ some "") :
    ResourceBack g (g.given.pieces org).text ↔
      PlainAuthority g.orgs org g.host ∧ '\n' ∉ g.sha256.toList := by
  constructor
  · rintro ⟨⟨r, hr, hback⟩, r', hr', hback'⟩
    obtain ⟨v, hv, horg', hhost⟩ := PyUri.of_parseResource hr'
    refine ⟨plainAuthority_of_parse (g := g.given) hfrom hv (hhost.trans hback'.host) ?_, ?_⟩
    · rw [horg']
      exact hback'.env
    · rw [← validateSha256_iff h.sha256, ← hback.sha256]
      exact Uri.sha256_of_parseResource hr
  · rintro ⟨hauthority, hnew⟩
    have hrows : TextRows g.given.rows := fun r hr => by cases hr
    have hport : ∀ n, g.given.port = some n → digitCount n.repr ≤ maxStrDigits :=
      fun n hn => by cases hn
    obtain ⟨⟨u, hu, hback⟩, v, hv, hback'⟩ :=
      readBack_of_plain hport horg List.nodup_nil hauthority h.segments hrows
    exact ⟨h.parseResource_ex hnew hu hback, h.parseResource_py hv hback'⟩

theorem Uri.of_buildResource {mediaType sha256 s : String} {opts : Uri.ResourceOpts}
    (h : Uri.buildResource mediaType sha256 opts = .ok s) :
    Allowed ⟨mediaType, sha256, opts.ext, givenNames none opts.env, opts.host⟩ ∧
      Uri.validateSha256 sha256 = true ∧
        s = ((GivenResource.given ⟨mediaType, sha256, opts.ext, givenNames none opts.env,
          opts.host⟩).pieces (Uri.written none opts.env)).text := by
  unfold Uri.buildResource at h
  dsimp only at h
  split_ifs at h with hsha hext
  have hvalid : Uri.validateSha256 sha256 = true := by simpa using hsha
  have hallowed : Uri.validateExt mediaType (Uri.downcase opts.ext) = true := by simpa using hext
  have hpattern : sha256Pattern sha256 = true := by
    unfold Uri.validateSha256 at hvalid
    exact (Bool.and_eq_true_iff.mp hvalid).2
  have htext := Uri.of_buildPath h
  refine ⟨⟨hpattern, ?_⟩, hvalid, htext⟩
  unfold Uri.validateExt at hallowed
  split at hallowed
  · cases hallowed
  · rename_i exts hlookup
    refine ⟨exts, hlookup, ?_⟩
    have hmem := List.contains_iff_mem.mp hallowed
    rwa [Uri.downcase, Uri.downcase, lowerAscii_lowerAscii] at hmem

theorem PyUri.of_buildResource {mediaType sha256 ext s host : String} {env : Option String}
    (h : PyUri.buildResource mediaType sha256 ext env host = .ok s) :
    Allowed ⟨mediaType, sha256, ext, givenNames none env, host⟩ ∧
      s = ((GivenResource.given ⟨mediaType, sha256, ext, givenNames none env, host⟩).pieces
        (PyUri.written none env)).text := by
  unfold PyUri.buildResource at h
  dsimp only at h
  split_ifs at h with hsha
  split at h
  · cases h
  · rename_i exts hlookup
    split_ifs at h with hext
    have hpattern : PyUri.shaMatches sha256 = true := by simpa using hsha
    exact ⟨⟨hpattern, exts, hlookup, hext⟩, (PyUri.of_buildPath h).1⟩

/-! ## Every builder -/

/-- **Which inputs make the round trip.**  Of the inputs that a builder accepts, these
are the ones that both languages read back as they were given. -/
theorem roundTrips_iff {i : Input} {s : String} (h : i.built = some s) :
    i.RoundTrips s ↔ i.Plain := by
  cases i with
  | exBuild type id host opts =>
    obtain rfl := Uri.of_build (toOption_eq_some.mp h)
    exact Uri.readBack_iff
  | exBuildPath segments host opts =>
    obtain rfl := Uri.of_buildPath (toOption_eq_some.mp h)
    exact Uri.readBack_iff
  | exBuildResource mediaType sha256 opts =>
    obtain ⟨hallowed, hsha, rfl⟩ := Uri.of_buildResource (toOption_eq_some.mp h)
    have hnew : '\n' ∉ sha256.toList := (validateSha256_iff hallowed.sha256).mp hsha
    exact (resourceBack_iff hallowed (fun o ho => Uri.mem_written ho)
      (filter_ne_some_empty _)).trans (and_iff_left hnew)
  | pyBuild type id host port org params =>
    obtain ⟨rfl, hport⟩ := PyUri.of_build (toOption_eq_some.mp h)
    exact readBack_iff (fun o ho => PyUri.mem_written ho) (filter_ne_some_empty _) hport
      params.nodup_rows
  | pyBuildPath segments host port org env params =>
    obtain ⟨rfl, hport⟩ := PyUri.of_buildPath (toOption_eq_some.mp h)
    exact readBack_iff (fun o ho => PyUri.mem_written ho) (filter_ne_some_empty _) hport
      params.nodup_rows
  | pyBuildResource mediaType sha256 ext env host =>
    obtain ⟨hallowed, rfl⟩ := PyUri.of_buildResource (toOption_eq_some.mp h)
    exact resourceBack_iff hallowed (fun o ho => PyUri.mem_written ho) (filter_ne_some_empty _)

/-- A chat of a workspace makes the round trip. -/
theorem roundTrips_chat :
    (Input.exBuildPath ["workspaces", "dev", "chats", "oc_1"] "localhost" {}).RoundTrips
      "esr://localhost/workspaces/dev/chats/oc_1" := by
  refine (roundTrips_iff (by decide +kernel)).mpr ⟨?_, ?_⟩
  · refine ⟨⟨fun o ho => ?_, fun _ => rfl⟩, fun o ho => ?_, by decide, fun c hc => ?_, fun _ => by decide⟩
    · cases ho
    · cases ho
    · have hchars : "localhost".toList.all (fun c => c ≠ '/' ∧ c ≠ '?' ∧ c ≠ ':') = true := by decide
      exact of_decide_eq_true (List.all_eq_true.mp hchars c hc)
  · refine ⟨by decide, fun seg hseg => ?_⟩
    have hsegments : ["workspaces", "dev", "chats", "oc_1"].all (fun seg =>
        seg ≠ "" && seg.toList.all fun c => c ≠ '/' ∧ c ≠ '?') = true := by decide
    obtain ⟨hne, hchars⟩ := Bool.and_eq_true_iff.mp (List.all_eq_true.mp hsegments seg hseg)
    exact ⟨of_decide_eq_true hne, fun c hc => of_decide_eq_true (List.all_eq_true.mp hchars c hc)⟩

/-- An empty id, which only the other language's builder refuses, is not read back. -/
theorem not_roundTrips_emptyId :
    ∃ s, (Input.exBuild "adapter" "" "localhost" {}).built = some s ∧
      ¬(Input.exBuild "adapter" "" "localhost" {}).RoundTrips s := by
  refine ⟨"esr://localhost/adapter/", by decide +kernel, ?_⟩
  rintro ⟨⟨u, hu, -⟩, -⟩
  have hrefused : (Uri.parse "esr://localhost/adapter/").toOption.isNone = true := by decide +kernel
  rw [hu] at hrefused
  cases hrefused

end Esr
