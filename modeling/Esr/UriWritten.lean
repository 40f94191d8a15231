import Esr.UriParsers

/-! # Reading back what was written

Every builder writes an authority, segments joined by `/`, and perhaps a query.  This
module says of such a text, whoever wrote it, when both parsers give back what it was
written from: exactly where no part has a separator that the readers cut at, and the
segments are of a type that both know.

One direction puts the text together and takes it apart again (`PlainAuthority.cut`).
The other needs no text: what a parser returns has no separators in it, so what is
returned as it was given had none (`PlainAuthority.of_read`).
-/
namespace Esr

/-- The port, behind its `:`. -/
def portSuffix (port : Option Int) : String := (port.map fun n => ":" ++ n.repr).getD ""

/-- The authority as it is written. -/
def authText (org : Option String) (host : String) (port : Option Int) : String :=
  match org with
  | none => host ++ portSuffix port
  | some o => o ++ "@" ++ (host ++ portSuffix port)

/-- The organisation is each of those given, and none if none is. -/
def OrgIs (given : List String) (org : Option String) : Prop :=
  (∀ o ∈ given, org = some o) ∧ (given = [] → org = none)

/-- **An authority without separators**, written for what was given. -/
structure PlainAuthority (given : List String) (org : Option String) (host : String) : Prop where
  isGiven : OrgIs given org
  orgChars : ∀ o, org = some o → ∀ c ∈ o.toList, c ≠ '/' ∧ c ≠ '?' ∧ c ≠ '@'
  hostNe : host ≠ ""
  hostChars : ∀ c ∈ host.toList, c ≠ '/' ∧ c ≠ '?' ∧ c ≠ ':'
  hostAt : org = none → '@' ∉ host.toList

/-- **Segments without separators**, of a type that both parsers know. -/
structure PlainSegments (segments : List String) : Prop where
  typed : PyUri.Typed segments
  chars : ∀ seg ∈ segments, seg ≠ "" ∧ ∀ c ∈ seg.toList, c ≠ '/' ∧ c ≠ '?'

/-! ## Authorities -/

theorem cutFirst_portSuffix {host : String} (h : ':' ∉ host.toList) (port : Option Int) :
    cutFirst ':' (host ++ portSuffix port) = (host, port.map Int.repr) := by
  cases port with
  | none =>
    show cutFirst ':' (host ++ "") = (host, none)
    rw [String.append_empty]
    exact cutFirst_of_not_mem h
  | some n =>
    show cutFirst ':' (host ++ (":" ++ n.repr)) = (host, some n.repr)
    rw [← String.append_assoc]
    exact cutFirst_append h n.repr

theorem portSuffix_chars {port : Option Int} {c : Char} (h : c ∈ (portSuffix port).toList) :
    c ≠ '/' ∧ c ≠ '?' ∧ c ≠ '@' := by
  cases port with
  | none => cases h
  | some n =>
    have hmem : c ∈ (":" ++ n.repr).toList := h
    rw [String.toList_append] at hmem
    rcases List.mem_append.mp hmem with hcolon | hrepr
    · obtain rfl : c = ':' := List.mem_singleton.mp hcolon
      decide
    · obtain ⟨hslash, hquery, hat, -⟩ := repr_chars hrepr
      exact ⟨hslash, hquery, hat⟩

theorem of_mem_authText {org : Option String} {host : String} {port : Option Int} {c : Char}
    (h : c ∈ (authText org host port).toList) :
    (∃ o, org = some o ∧ (c ∈ o.toList ∨ c = '@')) ∨ c ∈ host.toList ∨
      c ∈ (portSuffix port).toList := by
  unfold authText at h
  cases org with
  | none =>
    rw [String.toList_append] at h
    exact .inr (List.mem_append.mp h)
  | some o =>
    dsimp only at h
    rw [String.toList_append, String.toList_append, String.toList_append] at h
    rcases List.mem_append.mp h with hleft | hright
    · rcases List.mem_append.mp hleft with ho | hat
      · exact .inl ⟨o, rfl, .inl ho⟩
      · exact .inl ⟨o, rfl, .inr (List.mem_singleton.mp hat)⟩
    · exact .inr (List.mem_append.mp hright)

namespace PlainAuthority
variable {given : List String} {org : Option String} {host : String}

theorem chars (h : PlainAuthority given org host) {port : Option Int} {c : Char}
    (hc : c ∈ (authText org host port).toList) : c ≠ '/' ∧ c ≠ '?' := by
  rcases of_mem_authText hc with ⟨o, ho, hc | rfl⟩ | hc | hc
  · exact ⟨(h.orgChars o ho c hc).1, (h.orgChars o ho c hc).2.1⟩
  · decide
  · exact ⟨(h.hostChars c hc).1, (h.hostChars c hc).2.1⟩
  · exact ⟨(portSuffix_chars hc).1, (portSuffix_chars hc).2.1⟩

theorem cut (h : PlainAuthority given org host) (port : Option Int) :
    cutAuthority (authText org host port) = ⟨org, host, port.map Int.repr⟩ := by
  have hcolon := cutFirst_portSuffix (fun hc => (h.hostChars _ hc).2.2 rfl) port
  unfold cutAuthority authText
  cases org with
  | none =>
    have hno : '@' ∉ (host ++ portSuffix port).toList := by
      rw [String.toList_append]
      exact List.not_mem_append (h.hostAt rfl) fun hc => (portSuffix_chars hc).2.2 rfl
    rw [cutOrg_of_not_mem hno, hcolon]
  | some o =>
    have hno : '@' ∉ o.toList := fun hc => (h.orgChars o rfl _ hc).2.2 rfl
    dsimp only
    rw [cutOrg_append hno, hcolon]

theorem not_mem_of_cut {port : Option Int} (hcolon : ':' ∉ host.toList)
    (h : (cutAuthority (host ++ portSuffix port)).host = host) : '@' ∉ host.toList := by
  intro hat
  rcases splitParts2_cases '@' host with ⟨x, y, -, hhost, hx⟩ | ⟨-, hno⟩
  · have hy : ':' ∉ y.toList := by
      intro hmem
      rw [hhost, String.toList_append] at hcolon
      exact hcolon (List.mem_append_right _ hmem)
    have hassoc : host ++ portSuffix port = x ++ "@" ++ (y ++ portSuffix port) := by
      rw [← String.append_assoc]
      exact congrArg (· ++ portSuffix port) hhost
    have hread : (cutAuthority (host ++ portSuffix port)).host = y := by
      unfold cutAuthority
      rw [hassoc, cutOrg_append hx, cutFirst_portSuffix hy]
    have hlen := congrArg String.length (hhost.trans (congrArg _ (hread.symm.trans h)))
    rw [String.length_append, String.length_append, String.length_singleton] at hlen
    omega
  · exact hno hat

/-- **What is read as it was given has no separators.** -/
theorem of_read {port : Option Int} {rest : String} {p : Pieces}
    (hp : pieces ("esr://" ++ (authText org host port ++ "/" ++ rest)) = some p)
    (hquery : '?' ∉ p.authority.toList) (hne : host ≠ "")
    (hhost : (cutAuthority p.authority).host = host)
    (horg : OrgIs given (cutAuthority p.authority).org) (hfrom : ∀ o, org = some o → o ∈ given) :
    PlainAuthority given org host := by
  obtain ⟨rest', htext, hslash, -⟩ := pieces_eq_some.mp hp
  have hclean : ∀ c ∈ p.authority.toList, c ≠ '/' ∧ c ≠ '?' := by
    intro c hc
    refine ⟨?_, ?_⟩
    · rintro rfl
      exact hslash hc
    · rintro rfl
      exact hquery hc
  have hhostClean : ∀ c ∈ host.toList, c ≠ '/' ∧ c ≠ '?' := fun c hc =>
    hclean c (mem_of_mem_host (hhost.symm ▸ hc))
  have hcolon : ':' ∉ host.toList := by
    rw [← hhost]
    exact not_mem_cutFirst ':' _
  have horgRead : ∀ o, org = some o → (cutAuthority p.authority).org = some o := fun o ho =>
    horg.1 o (hfrom o ho)
  have horgChars : ∀ o, org = some o → ∀ c ∈ o.toList, c ≠ '/' ∧ c ≠ '?' ∧ c ≠ '@' := by
    intro o ho c hc
    obtain ⟨hat, hmem⟩ := of_mem_org (horgRead o ho) hc
    exact ⟨(hclean c hmem).1, (hclean c hmem).2, hat⟩
  have hno : '/' ∉ (authText org host port).toList := by
    intro hc
    rcases of_mem_authText hc with ⟨o, ho, hc | hat⟩ | hc | hc
    · exact (horgChars o ho _ hc).1 rfl
    · exact absurd hat (by decide)
    · exact (hhostClean _ hc).1 rfl
    · exact (portSuffix_chars hc).1 rfl
  have hauthority : p.authority = authText org host port :=
    (cut_injective hno hslash ((String.append_right_inj _).mp htext)).1.symm
  have hostAt : org = none → '@' ∉ host.toList := by
    rintro rfl
    rw [hauthority] at hhost
    exact not_mem_of_cut hcolon hhost
  refine ⟨⟨?_, ?_⟩, horgChars, hne, fun c hc => ?_, hostAt⟩
  · intro o ho
    cases hw : org with
    | some w => rw [← horg.1 o ho, horgRead w hw]
    | none =>
      -- nothing was written, so nothing is read
      have hread := horg.1 o ho
      subst hw
      rw [hauthority] at hread
      have hat : '@' ∈ (host ++ portSuffix port).toList := cutOrg_of_fst hread
      rw [String.toList_append] at hat
      rcases List.mem_append.mp hat with hat | hat
      · exact absurd hat (hostAt rfl)
      · exact absurd rfl (portSuffix_chars hat).2.2
  · intro hnil
    cases hw : org with
    | none => rfl
    | some w =>
      have hmem := hfrom w hw
      rw [hnil] at hmem
      cases hmem
  · exact ⟨(hhostClean c hc).1, (hhostClean c hc).2, fun hc' => hcolon (hc' ▸ hc)⟩

end PlainAuthority

/-! ## What is written and what is returned -/

/-- What a builder was given: the names of an organisation, of which an alias may be a
second, the host, the port, the segments, and the names and values of the parameters. -/
structure Given where
  orgs : List String
  host : String
  port : Option Int
  segments : List String
  rows : List (List UInt8 × List UInt8)

/-- The query that is written for these rows. -/
def writtenQuery (rows : List (List UInt8 × List UInt8)) : Option String :=
  if rows = [] then none else some (String.ofList (urlencode rows))

/-- The pieces that are written for it, with this organisation. -/
def Given.pieces (g : Given) (org : Option String) : Pieces :=
  { authority := authText org g.host g.port
    path := "/".intercalate g.segments
    query := writtenQuery g.rows }

/-- A map with these rows. -/
def HasBytes (rows : List (List UInt8 × List UInt8)) (m : Ets (List UInt8) (List UInt8)) : Prop :=
  ∀ k v, m.lookup k = some v ↔ (k, v) ∈ rows

/-- A dict with the texts of these rows. -/
structure HasTexts (rows : List (List UInt8 × List UInt8)) (d : Ets String String) : Prop where
  all : ∀ r ∈ rows, ∃ k v : String, r = (bytesOf k.toList, bytesOf v.toList) ∧ d.lookup k = some v
  noOther : ∀ k v, d.lookup k = some v → (bytesOf k.toList, bytesOf v.toList) ∈ rows

/-- The URI has the components that were given. -/
structure Uri.Returns (g : Given) (u : Uri.Parsed) : Prop where
  org : OrgIs g.orgs u.org
  host : u.host = g.host
  port : u.port = g.port
  type : u.type = typeOf g.segments
  id : u.id = idOf g.segments
  segments : u.segments = g.segments
  params : HasBytes g.rows u.params

/-- The URI has the components that were given. -/
structure PyUri.Returns (g : Given) (v : PyUri.EsrURI) : Prop where
  org : OrgIs g.orgs v.org
  host : v.host = g.host
  port : v.port = g.port
  type : v.type = typeOf g.segments
  id : v.id = idOf g.segments
  segments : v.segments = g.segments
  params : HasTexts g.rows v.params

/-- **Both parsers give back** what was given. -/
def ReadBack (g : Given) (s : String) : Prop :=
  (∃ u, Uri.parse s = .ok u ∧ Uri.Returns g u) ∧ ∃ v, PyUri.parse s = .ok v ∧ PyUri.Returns g v

theorem toOption_eq_some {ε α : Type} {x : Except ε α} {a : α} :
    x.toOption = some a ↔ x = .ok a := by
  cases x with
  | error e => simp [Except.toOption]
  | ok b => simp [Except.toOption]

theorem PyUri.of_parse {s : String} {v : PyUri.EsrURI} (h : PyUri.parse s = .ok v) :
    ∃ p port, Esr.pieces s = some p ∧ v = PyUri.assemble p port ∧ '?' ∉ p.authority.toList ∧
      PyUri.Typed (parts p.path) ∧ (cutAuthority p.authority).host ≠ "" := by
  have hread := toOption_eq_some.mpr h
  rw [PyUri.parse_pieces] at hread
  obtain ⟨p, hp, hof⟩ := Option.bind_eq_some_iff.mp hread
  unfold PyUri.ofPieces at hof
  split at hof
  · rename_i htyped
    obtain ⟨port, hport, rfl⟩ := Option.map_eq_some_iff.mp hof
    refine ⟨p, port, hp, rfl, htyped.1, htyped.2, fun hhost => ?_⟩
    unfold PyUri.readPort at hport
    rw [if_pos (Or.inr hhost)] at hport
    cases hport
  · cases hof

/-! ## Parameters -/

section
variable {rows : List (List UInt8 × List UInt8)}

theorem hasBytes_readQuery (h : (rows.map Prod.fst).Nodup) :
    HasBytes rows (Uri.readQuery (writtenQuery rows)) := by
  intro k v
  unfold writtenQuery Uri.readQuery
  by_cases hnil : rows = []
  · rw [if_pos hnil, hnil]
    simp
  · rw [if_neg hnil]
    dsimp only
    rw [String.toList_ofList, decodeQuery_urlencode hnil, Ets.lookup_insertEach_eq_some h]
    simp

/-- Rows whose names and values are texts. -/
def TextRows (rows : List (List UInt8 × List UInt8)) : Prop :=
  ∀ r ∈ rows, IsText r.1 ∧ IsText r.2

theorem textRows_of_hasTexts {d : Ets String String} (h : HasTexts rows d) : TextRows rows := by
  intro r hr
  obtain ⟨k, v, rfl, -⟩ := h.all r hr
  exact ⟨isText_bytesOf _, isText_bytesOf _⟩

theorem lookup_textRows (htext : TextRows rows) (h : (rows.map Prod.fst).Nodup) (k v : String) :
    (dictOf (rows.map fun r => (String.ofList (unquotePlus (quotePlus r.1)),
      String.ofList (unquotePlus (quotePlus r.2))))).lookup k = some v ↔
        (bytesOf k.toList, bytesOf v.toList) ∈ rows := by
  have hname : ∀ r ∈ rows, bytesOf (unquotePlus (quotePlus r.1)) = r.1 := fun r hr =>
    bytesOf_unquotePlus_quotePlus (htext r hr).1
  have hvalue : ∀ r ∈ rows, bytesOf (unquotePlus (quotePlus r.2)) = r.2 := fun r hr =>
    bytesOf_unquotePlus_quotePlus (htext r hr).2
  have hnodup : ((rows.map fun r => (String.ofList (unquotePlus (quotePlus r.1)),
      String.ofList (unquotePlus (quotePlus r.2)))).map Prod.fst).Nodup := by
    rw [List.map_map]
    rw [List.nodup_map_iff_inj_on (List.Nodup.of_map _ h)]
    intro r hr r' hr' heq
    have hbytes : r.1 = r'.1 := by
      rw [← hname r hr, ← hname r' hr', String.ofList_injective heq]
    exact List.inj_on_of_nodup_map h hr hr' hbytes
  unfold dictOf
  rw [Ets.lookup_insertEach_eq_some hnodup, Ets.lookup_empty]
  constructor
  · rintro (hmem | ⟨-, hnone⟩)
    · obtain ⟨r, hr, heq⟩ := List.mem_map.mp hmem
      obtain ⟨rfl, rfl⟩ := Prod.mk.inj heq
      rw [String.toList_ofList, String.toList_ofList, hname r hr, hvalue r hr]
      exact hr
    · cases hnone
  · intro hmem
    refine .inl (List.mem_map.mpr ⟨_, hmem, ?_⟩)
    rw [unquotePlus_quotePlus, unquotePlus_quotePlus, String.ofList_toList, String.ofList_toList]

theorem hasTexts_readQuery (htext : TextRows rows) (h : (rows.map Prod.fst).Nodup) :
    HasTexts rows (PyUri.readQuery (writtenQuery rows)) := by
  have hlookup : ∀ k v : String, (PyUri.readQuery (writtenQuery rows)).lookup k = some v ↔
      (bytesOf k.toList, bytesOf v.toList) ∈ rows := by
    intro k v
    unfold writtenQuery PyUri.readQuery
    by_cases hnil : rows = []
    · rw [if_pos hnil, hnil]
      simp [dictOf, parseQsl, Ets.insertEach]
    · rw [if_neg hnil, Option.getD_some, String.toList_ofList, parseQsl_urlencode hnil]
      exact lookup_textRows htext h k v
  refine ⟨fun r hr => ?_, fun k v hkv => (hlookup k v).mp hkv⟩
  obtain ⟨hk, hv⟩ := htext r hr
  obtain ⟨ck, hck⟩ := isText_iff.mp hk
  obtain ⟨cv, hcv⟩ := isText_iff.mp hv
  have hrow : r = (bytesOf (String.ofList ck).toList, bytesOf (String.ofList cv).toList) := by
    rw [String.toList_ofList, String.toList_ofList, ← hck, ← hcv]
  exact ⟨_, _, hrow, (hlookup _ _).mpr (hrow ▸ hr)⟩

end

/-! ## Reading back -/

section
variable {g : Given} {org : Option String}

theorem Given.pieces_text (hauthority : PlainAuthority g.orgs org g.host)
    (hsegments : PlainSegments g.segments) :
    Esr.pieces (g.pieces org).text = some (g.pieces org) := by
  refine Esr.pieces_text (fun hc => (hauthority.chars hc).1 rfl) fun hc => ?_
  rcases of_mem_intercalate hc with hslash | ⟨seg, hseg, hc⟩
  · exact absurd hslash (by decide)
  · exact ((hsegments.chars seg hseg).2 _ hc).2 rfl

theorem Given.parts_path (hsegments : PlainSegments g.segments) :
    parts (g.pieces org).path = g.segments :=
  parts_intercalate fun seg hseg =>
    ⟨(hsegments.chars seg hseg).1, fun hc => ((hsegments.chars seg hseg).2 _ hc).1 rfl⟩

variable (hport : ∀ n, g.port = some n → digitCount n.repr ≤ maxStrDigits) (horg : org ≠ some "")
include hport horg

theorem Given.readPort (h : PlainAuthority g.orgs org g.host) :
    Uri.readPort (cutAuthority (g.pieces org).authority) = some g.port ∧
      PyUri.readPort (cutAuthority (g.pieces org).authority) = some g.port := by
  have hcut : cutAuthority (g.pieces org).authority = ⟨org, g.host, g.port.map Int.repr⟩ :=
    h.cut g.port
  unfold Uri.readPort PyUri.readPort
  rw [hcut]
  dsimp only
  rw [if_neg (not_or.mpr ⟨horg, h.hostNe⟩)]
  cases hp : g.port with
  | none =>
    dsimp only [Option.map_none]
    rw [if_neg h.hostNe]
    exact ⟨rfl, rfl⟩
  | some n =>
    have hsigned := signedDigits_repr n
    have hne : n.repr ≠ "" := by
      intro hempty
      rw [hempty] at hsigned
      cases hsigned
    dsimp only [Option.map_some]
    rw [if_pos hsigned, intValue_repr, if_neg hne, pyInt_of_signed hsigned, if_pos (hport n hp),
      intValue_repr]
    exact ⟨rfl, rfl⟩

/-- **What was written without separators is read back.** -/
theorem readBack_of_plain (hnodup : (g.rows.map Prod.fst).Nodup)
    (hauthority : PlainAuthority g.orgs org g.host) (hsegments : PlainSegments g.segments)
    (hrows : TextRows g.rows) : ReadBack g (g.pieces org).text := by
  have hpieces := Given.pieces_text hauthority hsegments
  have hparts : parts (g.pieces org).path = g.segments := Given.parts_path hsegments
  obtain ⟨hex, hpy⟩ := Given.readPort hport horg hauthority
  have hcut : cutAuthority (g.pieces org).authority = ⟨org, g.host, g.port.map Int.repr⟩ :=
    hauthority.cut g.port
  have hquery : '?' ∉ (g.pieces org).authority.toList := fun hc => (hauthority.chars hc).2 rfl
  refine ⟨⟨Uri.assemble (g.pieces org) g.port, ?_, ?_⟩,
    ⟨PyUri.assemble (g.pieces org) g.port, ?_, ?_⟩⟩
  · rw [← toOption_eq_some, Uri.parse_pieces, hpieces, Option.bind_some, Uri.ofPieces, hparts,
      if_pos (uri_typed_of_typed hsegments.typed), hex, Option.map_some]
  · unfold Uri.assemble
    rw [hcut, hparts]
    exact ⟨hauthority.isGiven, rfl, rfl, rfl, rfl, rfl, hasBytes_readQuery hnodup⟩
  · rw [← toOption_eq_some, PyUri.parse_pieces, hpieces, Option.bind_some, PyUri.ofPieces, hparts,
      if_pos ⟨hquery, hsegments.typed⟩, hpy, Option.map_some]
  · unfold PyUri.assemble
    rw [hcut, hparts]
    exact ⟨hauthority.isGiven, rfl, rfl, rfl, rfl, rfl, hasTexts_readQuery hrows hnodup⟩

end

section
variable {g : Given} {org : Option String} (hfrom : ∀ o, org = some o → o ∈ g.orgs)
include hfrom

theorem plainAuthority_of_parse {v : PyUri.EsrURI} (hv : PyUri.parse (g.pieces org).text = .ok v)
    (hhost : v.host = g.host) (horg : OrgIs g.orgs v.org) :
    PlainAuthority g.orgs org g.host := by
  obtain ⟨p, port, hp, rfl, hquery, -, hne⟩ := PyUri.of_parse hv
  have hsame : (cutAuthority p.authority).host = g.host := hhost
  exact PlainAuthority.of_read hp hquery (hsame ▸ hne) hsame horg hfrom

/-- **What is read back was written without separators.** -/
theorem plain_of_readBack (h : ReadBack g (g.pieces org).text) :
    PlainAuthority g.orgs org g.host ∧ PlainSegments g.segments ∧ TextRows g.rows := by
  obtain ⟨-, v, hv, hback⟩ := h
  have hauthority := plainAuthority_of_parse hfrom hv hback.host hback.org
  obtain ⟨p, port, hp, rfl, -, htyped, -⟩ := PyUri.of_parse hv
  have hsegments : parts p.path = g.segments := hback.segments
  refine ⟨hauthority, ⟨hsegments ▸ htyped, fun seg hseg => ?_⟩, textRows_of_hasTexts hback.params⟩
  obtain ⟨hne, hchars⟩ := of_mem_parts (hsegments ▸ hseg)
  obtain ⟨rest, -, -, hcut⟩ := pieces_eq_some.mp hp
  have hno : '?' ∉ p.path.toList := by
    have hfirst := not_mem_cutFirst '?' rest
    rwa [hcut] at hfirst
  refine ⟨hne, fun c hc => ⟨(hchars c hc).1, ?_⟩⟩
  rintro rfl
  exact hno (hchars _ hc).2

end

end Esr
