import Esr.PyUri
import Esr.Uri

/-! # Two parsers of one grammar

The Elixir runtime and the Python side parse the same `esr://` texts, and must agree on
them.  Each parser is reduced here to what it asks of the pieces of a text
(`Uri.parse_pieces`, `PyUri.parse_pieces`); from there the comparison is one of
conditions.

The Elixir parser is the wider one: it takes types that Python does not know, an
empty organisation, an empty host in front of a port, legacy types with more segments,
and a `?` in the authority.  The Python parser is the wider one about ports: a `:` with
nothing behind it, white space, underscores and foreign digits.  On the parameters they
part where `Esr.Queries` says.
-/
namespace Esr

theorem toOption_bind {ε α β : Type} (x : Except ε α) (f : α → Except ε β) :
    (x >>= f).toOption = x.toOption.bind fun a => (f a).toOption := by
  cases x <;> rfl

theorem toOption_ok {ε α : Type} (a : α) : (Except.ok a : Except ε α).toOption = some a := rfl

/-! ## What Elixir asks -/

namespace Uri

/-- The port of an authority that is taken. -/
def readPort (a : Authority) : Option (Option Int) :=
  match a.port with
  | none => if a.host = "" then none else some none
  | some t => if signedDigits t then some (some (intValue t)) else none

/-- Segments with a type that is taken. -/
def Typed (segments : List String) : Prop :=
  2 ≤ segments.length ∧ typeOf segments ∈ validTypes

instance Typed.decidable (segments : List String) : Decidable (Typed segments) :=
  inferInstanceAs (Decidable (_ ∧ _))

/-- The parameters of a query. -/
def readQuery (query : Option String) : Ets (List UInt8) (List UInt8) :=
  match query with
  | none => Ets.empty
  | some q => decodeQuery q.toList

/-- The URI that these pieces are, with this port. -/
def assemble (p : Pieces) (port : Option Int) : Parsed :=
  { org := (cutAuthority p.authority).org, host := (cutAuthority p.authority).host, port,
    type := typeOf (parts p.path), id := idOf (parts p.path), segments := parts p.path,
    params := readQuery p.query }

/-- What the parser makes of a text in pieces. -/
def ofPieces (p : Pieces) : Option Parsed :=
  if Typed (parts p.path) then (readPort (cutAuthority p.authority)).map (assemble p) else none

theorem parseAuthority_toOption (a : String) : (parseAuthority a).toOption =
    (readPort (cutAuthority a)).map fun port =>
      ((cutAuthority a).org, (cutAuthority a).host, port) := by
  unfold parseAuthority
  by_cases ha : a = ""
  · subst ha
    rfl
  · rw [if_neg ha]
    dsimp only
    unfold cutAuthority readPort cutFirst
    rcases splitParts2_cases ':' (cutOrg a).2 with ⟨host, t, hsplit, -, -⟩ | ⟨hsplit, -⟩
    · rw [hsplit]
      dsimp only
      cases hparse : integerParse t with
      | none =>
        have hno : signedDigits t = false := by
          rw [Bool.eq_false_iff]
          intro hyes
          rw [integerParse_of_signed hyes] at hparse
          cases hparse
        rw [hno]
        rfl
      | some r =>
        obtain ⟨n, rest⟩ := r
        by_cases hrest : rest = ""
        · subst hrest
          obtain ⟨hsigned, hvalue⟩ := signedDigits_of_integerParse hparse
          dsimp only
          rw [if_pos rfl, hsigned, if_pos rfl, hvalue]
          rfl
        · have hno : signedDigits t = false := by
            rw [Bool.eq_false_iff]
            intro hyes
            rw [integerParse_of_signed hyes] at hparse
            exact hrest (Prod.mk.inj (Option.some.inj hparse)).2.symm
          dsimp only
          rw [if_neg hrest, hno]
          rfl
    · rw [hsplit]
      dsimp only
      by_cases hhost : (cutOrg a).2 = ""
      · rw [if_pos hhost, if_pos hhost]
        rfl
      · rw [if_neg hhost, if_neg hhost]
        rfl

theorem splitQuery_eq {rest path : String} {query : Option String}
    (h : cutFirst '?' rest = (path, query)) :
    splitQuery ("/" ++ rest) = ("/" ++ path, readQuery query) := by
  cases query with
  | none =>
    obtain ⟨rfl, hno⟩ := cutFirst_eq_none.mp h
    have hwhole : splitParts2 '?' ("/" ++ path) = ["/" ++ path] := by
      refine splitParts2_eq_whole ?_
      rw [String.toList_append]
      exact List.not_mem_append (by decide) hno
    unfold splitQuery
    rw [hwhole]
    rfl
  | some q =>
    obtain ⟨rfl, hno⟩ := cutFirst_eq_some.mp h
    have hpair : splitParts2 '?' ("/" ++ (path ++ String.singleton '?' ++ q)) = ["/" ++ path, q] := by
      refine splitParts2_eq_pair.mpr ⟨by simp only [String.append_assoc], ?_⟩
      rw [String.toList_append]
      exact List.not_mem_append (by decide) hno
    unfold splitQuery
    rw [hpair]
    rfl

theorem parsePathAndQuery_toOption {rest path : String} {query : Option String}
    (h : cutFirst '?' rest = (path, query)) :
    (parsePathAndQuery ("/" ++ rest)).toOption =
      if Typed (parts path) then
        some (typeOf (parts path), idOf (parts path), parts path, readQuery query)
      else none := by
  unfold parsePathAndQuery
  rw [splitQuery_eq h]
  dsimp only
  rw [parts_slash]
  cases hparts : parts path with
  | nil => rfl
  | cons type more =>
    cases more with
    | nil => rfl
    | cons next more =>
      have hlen : 2 ≤ (type :: next :: more).length := by simp
      have hid : idOf (type :: next :: more) =
          (next :: more).getLast (List.cons_ne_nil _ _) := by
        simp [idOf, List.getLastD]
      by_cases htype : type ∈ validTypes
      · have htyped : Typed (type :: next :: more) := ⟨hlen, htype⟩
        rw [if_pos htyped, hid]
        dsimp only
        by_cases hlegacy : more = [] ∧ type ∈ legacyTypes
        · rw [if_pos hlegacy, hlegacy.1]
          rfl
        · rw [if_neg hlegacy, if_pos htype]
          rfl
      · have hlegacy : type ∉ legacyTypes := fun hl => htype (List.mem_append_left _ hl)
        have htyped : ¬Typed (type :: next :: more) := fun ht => htype ht.2
        rw [if_neg htyped]
        dsimp only
        rw [if_neg fun hl => hlegacy hl.2, if_neg htype]
        rfl

/-- **The Elixir parser, piece by piece.** -/
theorem parse_pieces (s : String) : (parse s).toOption = (pieces s).bind ofPieces := by
  unfold parse pieces
  cases hscheme : stripPrefix "esr://" s with
  | none => rfl
  | some rest =>
    dsimp only [Option.bind_some]
    unfold splitAuthority
    rcases splitParts2_cases '/' rest with ⟨a, pathAndQuery, hsplit, -, -⟩ | ⟨hsplit, -⟩
    · have hcut : cutFirst '/' rest = (a, some pathAndQuery) := by
        unfold cutFirst
        rw [hsplit]
      rw [hsplit, hcut, Option.map_some, Option.bind_some, toOption_bind]
      rw [toOption_ok, Option.bind_some, toOption_bind, parseAuthority_toOption]
      unfold ofPieces
      rw [Option.bind_map]
      dsimp only [Function.comp_def]
      simp only [toOption_bind, parsePathAndQuery_toOption (Prod.eta _).symm]
      cases readPort (cutAuthority a) with
      | none => exact (ite_self none).symm
      | some port =>
        rw [Option.bind_some]
        split
        · dsimp only [Option.bind_some, Option.map_some, assemble]
          rfl
        · rfl
    · have hcut : cutFirst '/' rest = (rest, none) := by
        unfold cutFirst
        rw [hsplit]
      rw [hsplit, hcut]
      rfl

end Uri

/-! ## What Python asks -/

namespace PyUri

/-- The port of an authority that is taken. -/
def readPort (a : Authority) : Option (Option Int) :=
  if a.org = some "" ∨ a.host = "" then none
  else
    match a.port with
    | none => some none
    | some t => if t = "" then some none else (pyInt t).map some

/-- Segments with a type that is taken. -/
def Typed (segments : List String) : Prop :=
  2 ≤ segments.length ∧ typeOf segments ∈ validTypes ∧
    (typeOf segments ∈ legacyTypes → segments.length = 2)

instance Typed.decidable (segments : List String) : Decidable (Typed segments) :=
  inferInstanceAs (Decidable (_ ∧ _ ∧ (_ → _)))

/-- The parameters of a query. -/
def readQuery (query : Option String) : Ets String String :=
  dictOf (parseQsl (query.getD "").toList)

/-- The URI that these pieces are, with this port. -/
def assemble (p : Pieces) (port : Option Int) : EsrURI :=
  { org := (cutAuthority p.authority).org, host := (cutAuthority p.authority).host, port,
    type := typeOf (parts p.path), id := idOf (parts p.path), segments := parts p.path,
    params := readQuery p.query }

/-- What the parser makes of a text in pieces. -/
def ofPieces (p : Pieces) : Option EsrURI :=
  if '?' ∉ p.authority.toList ∧ Typed (parts p.path) then
    (readPort (cutAuthority p.authority)).map (assemble p)
  else none

theorem parseOrg_toOption (a : String) : (parseOrg a).toOption =
    if (cutOrg a).1 = some "" then none else some (cutOrg a) := by
  unfold parseOrg cutOrg partition cutFirst
  rcases splitParts2_cases '@' a with ⟨o, h, hsplit, ha, -⟩ | ⟨hsplit, hno⟩
  · have hmem : '@' ∈ a.toList := by
      rw [ha]
      simp
    rw [if_pos hmem, hsplit]
    dsimp only [Option.getD_some]
    by_cases ho : o = ""
    · rw [if_pos ho, if_pos (congrArg some ho)]
      rfl
    · rw [if_neg ho, if_neg fun hsome => ho (Option.some.inj hsome)]
      rfl
  · rw [if_neg hno, hsplit]
    rfl

theorem parsePort_toOption (t : String) : (parsePort t).toOption =
    if t = "" then some none else (pyInt t).map some := by
  unfold parsePort
  split
  · rfl
  · cases pyInt t <;> rfl

theorem parsePath_toOption (path : String) : (parsePath path).toOption =
    if Typed (parts path) then some (typeOf (parts path), idOf (parts path), parts path)
    else none := by
  have hparts : ((split '/' path).filter fun p => p ≠ "") = parts path := rfl
  unfold parsePath
  dsimp only
  rw [hparts]
  cases hp : parts path with
  | nil =>
    rw [if_neg fun ht : Typed [] => absurd ht.1 (by decide)]
    split <;> rfl
  | cons type more =>
    cases more with
    | nil =>
      rw [if_neg fun ht : Typed [type] => absurd ht.1 (by simp)]
      dsimp only
      split_ifs <;> rfl
    | cons next more =>
      have hshort : ¬(type :: next :: more).length < 2 := by simp
      rw [if_neg fun hs => hshort hs.1]
      dsimp only
      have hne : ∀ seg ∈ type :: next :: more, seg ≠ "" := fun seg hseg =>
        (of_mem_parts (hp ▸ hseg)).1
      have hid : idOf (type :: next :: more) =
          (next :: more).getLast (List.cons_ne_nil _ _) := by
        simp [idOf, List.getLastD]
      by_cases htype : type ∈ validTypes
      · rw [if_neg (not_not_intro htype)]
        by_cases hlegacy : type ∈ legacyTypes
        · rw [if_pos hlegacy]
          cases more with
          | nil =>
            have htyped : Typed [type, next] := ⟨by simp, htype, fun _ => rfl⟩
            have hnext : next ≠ "" := hne next (List.mem_cons_of_mem _ List.mem_cons_self)
            dsimp only
            rw [if_neg hnext, if_pos htyped]
            rfl
          | cons third more =>
            rw [if_neg fun ht : Typed (type :: next :: third :: more) => by
              have hlen := ht.2.2 hlegacy
              simp at hlen]
            rfl
        · have htyped : Typed (type :: next :: more) :=
            ⟨by simp, htype, fun hl => absurd hl hlegacy⟩
          have hlast : (next :: more).getLast (List.cons_ne_nil _ _) ≠ "" :=
            hne _ (List.mem_cons_of_mem _ (List.getLast_mem _))
          rw [if_neg hlegacy, if_pos htyped, List.getLast?_eq_some_getLast (List.cons_ne_nil _ _),
            hid]
          dsimp only
          rw [if_neg hlast]
          rfl
      · rw [if_pos htype, if_neg fun ht => htype ht.2.1]
        rfl

theorem parse_of_cut {s a rest : String} (hs : s = "esr://" ++ (a ++ "/" ++ rest))
    (ha : '/' ∉ a.toList) (hq : '?' ∉ a.toList) :
    (parse s).toOption = ofPieces ⟨a, (cutFirst '?' rest).1, (cutFirst '?' rest).2⟩ := by
  have hcut : cutFirst '?' (a ++ "/" ++ rest) =
      (a ++ "/" ++ (cutFirst '?' rest).1, (cutFirst '?' rest).2) := by
    have hfront : ∀ path : String, '?' ∉ path.toList → '?' ∉ (a ++ "/" ++ path).toList := by
      intro path hpath
      rw [String.toList_append, String.toList_append]
      exact List.not_mem_append (List.not_mem_append hq (by decide)) hpath
    cases hrest : cutFirst '?' rest with
    | mk path query =>
      cases query with
      | none =>
        obtain ⟨rfl, hno⟩ := cutFirst_eq_none.mp hrest
        exact cutFirst_of_not_mem (hfront path hno)
      | some q =>
        obtain ⟨rfl, hno⟩ := cutFirst_eq_some.mp hrest
        refine cutFirst_eq_some.mpr ⟨?_, hfront path hno⟩
        simp only [String.append_assoc]
  have hpath : cutFirst '/' (a ++ "/" ++ (cutFirst '?' rest).1) =
      (a, some (cutFirst '?' rest).1) := cutFirst_append ha _
  have hmem : '/' ∈ (a ++ "/" ++ (cutFirst '?' rest).1).toList := by
    simp
  have hof : ofPieces ⟨a, (cutFirst '?' rest).1, (cutFirst '?' rest).2⟩ =
      (readPort (cutAuthority a)).bind fun port =>
        if Typed (parts (cutFirst '?' rest).1) then
          some (assemble ⟨a, (cutFirst '?' rest).1, (cutFirst '?' rest).2⟩ port)
        else none := by
    unfold ofPieces
    by_cases htyped : Typed (parts (cutFirst '?' rest).1)
    · rw [if_pos ⟨hq, htyped⟩, Option.map_eq_bind]
      simp only [if_pos htyped]
      rfl
    · rw [if_neg fun h => htyped h.2]
      simp only [if_neg htyped]
      cases readPort (cutAuthority a) <;> rfl
  rw [hof]
  unfold parse
  rw [stripPrefix_eq_some.mpr hs]
  dsimp only [partition]
  rw [hcut, hpath, Option.getD_some]
  dsimp only
  rw [if_neg fun hmissing => hmissing.2 hmem, toOption_bind, parseOrg_toOption]
  unfold readPort assemble cutAuthority readQuery
  dsimp only
  by_cases horg : (cutOrg a).1 = some ""
  · rw [if_pos horg, if_pos (Or.inl horg)]
    rfl
  · rw [if_neg horg, Option.bind_some]
    by_cases hhost : (cutFirst ':' (cutOrg a).2).1 = ""
    · rw [if_pos hhost, if_pos (Or.inr hhost)]
      rfl
    · rw [if_neg hhost, if_neg (not_or.mpr ⟨horg, hhost⟩), toOption_bind, parsePort_toOption]
      have hport : (match (cutFirst ':' (cutOrg a).2).2 with
          | none => some none
          | some t => if t = "" then some none else (pyInt t).map some) =
          if (cutFirst ':' (cutOrg a).2).2.getD "" = "" then some none
          else (pyInt ((cutFirst ':' (cutOrg a).2).2.getD "")).map some := by
        cases (cutFirst ':' (cutOrg a).2).2 with
        | none => rfl
        | some t => rfl
      rw [hport]
      refine congrArg (Option.bind _) (funext fun port => ?_)
      rw [toOption_bind, parsePath_toOption]
      split
      · dsimp only [Option.bind_some]
        rfl
      · rfl

theorem parse_of_noPath {rest x : String} {y : Option String}
    (hcut : cutFirst '?' rest = (x, y)) (hx : '/' ∉ x.toList) :
    (parse ("esr://" ++ rest)).toOption = none := by
  unfold parse
  rw [stripPrefix_eq_some.mpr rfl]
  dsimp only [partition]
  rw [hcut, cutFirst_of_not_mem hx]
  dsimp only
  rw [if_pos ⟨rfl, hx⟩]
  rfl

/-- **The Python parser, piece by piece.** -/
theorem parse_pieces (s : String) : (parse s).toOption = (pieces s).bind ofPieces := by
  cases hscheme : stripPrefix "esr://" s with
  | none =>
    unfold parse pieces
    rw [hscheme]
    rfl
  | some rest =>
    obtain rfl := stripPrefix_eq_some.mp hscheme
    cases hcut : cutFirst '/' rest with
    | mk a query =>
      cases query with
      | none =>
        obtain ⟨rfl, hno⟩ := cutFirst_eq_none.mp hcut
        unfold pieces
        rw [hscheme, Option.bind_some, hcut]
        exact parse_of_noPath (Prod.eta _).symm fun hmem => hno (mem_of_mem_cutFirst hmem)
      | some pathAndQuery =>
        obtain ⟨rfl, hno⟩ := cutFirst_eq_some.mp hcut
        have hp : pieces ("esr://" ++ (a ++ String.singleton '/' ++ pathAndQuery)) =
            some ⟨a, (cutFirst '?' pathAndQuery).1, (cutFirst '?' pathAndQuery).2⟩ :=
          pieces_eq_some.mpr ⟨pathAndQuery, rfl, hno, rfl⟩
        rw [hp, Option.bind_some]
        by_cases hq : '?' ∈ a.toList
        · -- the `?` hides the path from this parser
          have hnone : ofPieces ⟨a, (cutFirst '?' pathAndQuery).1, (cutFirst '?' pathAndQuery).2⟩ =
              none := if_neg fun h => h.1 hq
          rw [hnone]
          obtain ⟨x, z, -, ha, hx⟩ | ⟨-, hnot⟩ := splitParts2_cases '?' a
          · have hearly : cutFirst '?' (a ++ String.singleton '/' ++ pathAndQuery) =
                (x, some (z ++ String.singleton '/' ++ pathAndQuery)) := by
              refine cutFirst_eq_some.mpr ⟨?_, hx⟩
              rw [ha]
              simp only [String.append_assoc]
            refine parse_of_noPath hearly fun hmem => hno ?_
            rw [ha, String.toList_append, String.toList_append]
            exact List.mem_append_left _ (List.mem_append_left _ hmem)
          · exact absurd hq hnot
        · exact parse_of_cut rfl hno hq

end PyUri

/-! ## Agreement -/

/-- The same organisation, host, port, type, id, segments and parameters. -/
structure SameUri (u : Uri.Parsed) (v : PyUri.EsrURI) : Prop where
  org : u.org = v.org
  host : u.host = v.host
  port : u.port = v.port
  type : u.type = v.type
  id : u.id = v.id
  segments : u.segments = v.segments
  params : SameParams u.params v.params

/-- Both take a text, as the same URI, or both refuse it. -/
def SameResult : Option Uri.Parsed → Option PyUri.EsrURI → Prop
  | some u, some v => SameUri u v
  | none, none => True
  | _, _ => False

/-- **The two parsers agree** on a text. -/
def ParsersAgree (s : String) : Prop := SameResult (Uri.parse s).toOption (PyUri.parse s).toOption

/-- What Python refuses in the pieces of a text that Elixir may take: a `?` in the
authority, an empty organisation, an empty host, and the segments. -/
def Foreign (p : Pieces) : Prop :=
  '?' ∈ p.authority.toList ∨ (cutAuthority p.authority).org = some "" ∨
    (cutAuthority p.authority).host = "" ∨ ¬PyUri.Typed (parts p.path)

/-- The query, if there is one, is read alike. -/
def QueryAlike (p : Pieces) : Prop := ∀ q, p.query = some q → ReadAlike q.toList

/-- A port text is a sign and at most 4300 digits. -/
def PlainPort (t : String) : Prop := signedDigits t = true ∧ digitCount t ≤ maxStrDigits

/-- A port text, not empty, that neither side reads. -/
def NoPort (t : String) : Prop := t ≠ "" ∧ signedDigits t = false ∧ pyInt t = none

/-- **The texts read alike.**  Where the pieces are foreign to Python, Elixir refuses
the port; where they are not, the port is missing or plain and the query is read alike,
or the port is none to both. -/
structure TextAlike (p : Pieces) : Prop where
  foreign : Foreign p → ∃ t, (cutAuthority p.authority).port = some t ∧ signedDigits t = false
  known : ¬Foreign p → ((cutAuthority p.authority).port = none ∧ QueryAlike p) ∨
    ∃ t, (cutAuthority p.authority).port = some t ∧ (PlainPort t ∧ QueryAlike p ∨ NoPort t)

/-- What both sides refuse: no type that Elixir knows, fewer than two segments, or
nothing where the host stands. -/
def Hopeless (p : Pieces) : Prop :=
  ¬Uri.Typed (parts p.path) ∨
    (cutAuthority p.authority).host = "" ∧ (cutAuthority p.authority).port = none

theorem sameParams_readQuery (query : Option String) :
    SameParams (Uri.readQuery query) (PyUri.readQuery query) ↔
      ∀ q, query = some q → ReadAlike q.toList := by
  cases query with
  | none =>
    refine iff_of_true ⟨fun k => ?_, fun k _ => Ets.lookup_empty k⟩ fun q hq => ?_
    · exact (Ets.lookup_empty _).trans (congrArg (Option.map _) (Ets.lookup_empty k)).symm
    · cases hq
  | some q =>
    have hsome : (∀ q', some q = some q' → ReadAlike q'.toList) ↔ ReadAlike q.toList :=
      ⟨fun h => h q rfl, fun h q' hq => Option.some.inj hq ▸ h⟩
    rw [hsome]
    exact sameParams_iff q.toList

theorem sameUri_assemble {p : Pieces} {n m : Option Int} :
    SameUri (Uri.assemble p n) (PyUri.assemble p m) ↔ n = m ∧ QueryAlike p := by
  constructor
  · intro h
    exact ⟨h.port, (sameParams_readQuery p.query).mp h.params⟩
  · rintro ⟨rfl, hquery⟩
    exact ⟨rfl, rfl, rfl, rfl, rfl, rfl, (sameParams_readQuery p.query).mpr hquery⟩

theorem validTypes_subset : ∀ t ∈ PyUri.validTypes, t ∈ Uri.validTypes := by decide

theorem uri_typed_of_typed {segments : List String} (h : PyUri.Typed segments) :
    Uri.Typed segments :=
  ⟨h.1, validTypes_subset _ h.2.1⟩

section
variable {p : Pieces}

theorem sameResult_of_hopeless (h : Hopeless p) :
    SameResult (Uri.ofPieces p) (PyUri.ofPieces p) := by
  have hpy : PyUri.ofPieces p = none := by
    unfold PyUri.ofPieces
    split
    · rename_i htyped
      rcases h with hno | ⟨hhost, -⟩
      · exact absurd (uri_typed_of_typed htyped.2) hno
      · unfold PyUri.readPort
        rw [if_pos (Or.inr hhost)]
        rfl
    · rfl
  have hex : Uri.ofPieces p = none := by
    unfold Uri.ofPieces
    split
    · rename_i htyped
      rcases h with hno | ⟨hhost, hport⟩
      · exact absurd htyped hno
      · unfold Uri.readPort
        rw [hport, if_pos hhost]
        rfl
    · rfl
  rw [hpy, hex]
  trivial

theorem pyUri_ofPieces_of_foreign (h : Foreign p) : PyUri.ofPieces p = none := by
  unfold PyUri.ofPieces
  split
  · rename_i htyped
    unfold PyUri.readPort
    rcases h with hquery | horg | hhost | hno
    · exact absurd hquery htyped.1
    · rw [if_pos (Or.inl horg)]
      rfl
    · rw [if_pos (Or.inr hhost)]
      rfl
    · exact absurd htyped.2 hno
  · rfl

theorem readPort_eq_none (h : ¬Hopeless p) : Uri.readPort (cutAuthority p.authority) = none ↔
    ∃ t, (cutAuthority p.authority).port = some t ∧ signedDigits t = false := by
  unfold Uri.readPort
  cases hport : (cutAuthority p.authority).port with
  | none =>
    have hhost : (cutAuthority p.authority).host ≠ "" := fun hhost => h (.inr ⟨hhost, hport⟩)
    rw [if_neg hhost]
    simp
  | some t =>
    cases hsigned : signedDigits t <;> simp [hsigned]

theorem uri_ofPieces (h : ¬Hopeless p) : Uri.ofPieces p =
    (Uri.readPort (cutAuthority p.authority)).map (Uri.assemble p) :=
  if_pos (not_not.mp fun hno => h (.inl hno))

theorem pyUri_ofPieces (h : ¬Foreign p) : PyUri.ofPieces p =
    (match (cutAuthority p.authority).port with
      | none => some none
      | some t => if t = "" then some none else (pyInt t).map some).map (PyUri.assemble p) := by
  rw [Foreign, not_or, not_or, not_or, not_not] at h
  obtain ⟨hquery, horg, hhost, htyped⟩ := h
  unfold PyUri.ofPieces PyUri.readPort
  rw [if_pos ⟨hquery, htyped⟩, if_neg (not_or.mpr ⟨horg, hhost⟩)]

theorem sameResult_of_port {t : String} (hport : (cutAuthority p.authority).port = some t)
    (hhope : ¬Hopeless p) (hknown : ¬Foreign p) :
    SameResult (Uri.ofPieces p) (PyUri.ofPieces p) ↔ PlainPort t ∧ QueryAlike p ∨ NoPort t := by
  rw [uri_ofPieces hhope, pyUri_ofPieces hknown]
  unfold Uri.readPort PlainPort NoPort
  rw [hport]
  dsimp only
  by_cases hempty : t = ""
  · subst hempty
    have hsigned : signedDigits "" = false := by decide
    rw [hsigned]
    simp [SameResult]
  · rw [if_neg hempty]
    cases hsigned : signedDigits t with
    | true =>
      rw [pyInt_of_signed hsigned]
      by_cases hlen : digitCount t ≤ maxStrDigits
      · rw [if_pos hlen]
        simp [SameResult, sameUri_assemble, hlen]
      · rw [if_neg hlen]
        simp [SameResult, hlen]
    | false =>
      cases hint : pyInt t with
      | none => simp [SameResult, hempty]
      | some n => simp [SameResult]

end

/-- **When the two parsers agree**: on exactly the texts that are in no pieces, whose
pieces are hopeless, or whose pieces are read alike. -/
theorem parsersAgree_iff (s : String) :
    ParsersAgree s ↔ ∀ p, pieces s = some p → ¬Hopeless p → TextAlike p := by
  unfold ParsersAgree
  rw [Uri.parse_pieces, PyUri.parse_pieces]
  cases hpieces : pieces s with
  | none =>
    refine iff_of_true trivial fun p hp => ?_
    cases hp
  | some p =>
    have hone : (∀ q, some p = some q → ¬Hopeless q → TextAlike q) ↔ (¬Hopeless p → TextAlike p) :=
      ⟨fun h => h p rfl, fun h q hq => Option.some.inj hq ▸ h⟩
    rw [hone, Option.bind_some, Option.bind_some]
    by_cases hhope : Hopeless p
    · exact iff_of_true (sameResult_of_hopeless hhope) fun hno => absurd hhope hno
    · by_cases hforeign : Foreign p
      · -- Python refuses, so Elixir has to
        have halike : (¬Hopeless p → TextAlike p) ↔
            ∃ t, (cutAuthority p.authority).port = some t ∧ signedDigits t = false :=
          ⟨fun h => (h hhope).foreign hforeign, fun h _ => ⟨fun _ => h, fun hno => absurd hforeign hno⟩⟩
        rw [halike, ← readPort_eq_none hhope, pyUri_ofPieces_of_foreign hforeign,
          uri_ofPieces hhope]
        cases Uri.readPort (cutAuthority p.authority) <;> simp [SameResult]
      · have halike : (¬Hopeless p → TextAlike p) ↔
            ((cutAuthority p.authority).port = none ∧ QueryAlike p) ∨
              ∃ t, (cutAuthority p.authority).port = some t ∧
                (PlainPort t ∧ QueryAlike p ∨ NoPort t) :=
          ⟨fun h => (h hhope).known hforeign, fun h _ => ⟨fun hyes => absurd hyes hforeign, fun _ => h⟩⟩
        rw [halike]
        cases hport : (cutAuthority p.authority).port with
        | none =>
          have hhost : (cutAuthority p.authority).host ≠ "" := fun hh => hhope (.inr ⟨hh, hport⟩)
          rw [uri_ofPieces hhope, pyUri_ofPieces hforeign]
          unfold Uri.readPort
          rw [hport]
          dsimp only
          rw [if_neg hhost]
          simp [SameResult, sameUri_assemble]
        | some t =>
          rw [sameResult_of_port hport hhope hforeign]
          simp

/-- A session's terminal, as the runtime names it, is a text that the two sides do not
agree on. -/
theorem not_parsersAgree_ptys : ¬ParsersAgree "esr://localhost/ptys/7f3a/attach" := by
  have hex : ((Uri.parse "esr://localhost/ptys/7f3a/attach").toOption).isSome = true := by
    decide +kernel
  have hpy : ((PyUri.parse "esr://localhost/ptys/7f3a/attach").toOption).isSome = false := by
    decide +kernel
  intro h
  unfold ParsersAgree at h
  obtain ⟨u, hu⟩ := Option.isSome_iff_exists.mp hex
  rw [hu, Option.isSome_eq_false_iff.mp hpy |> Option.isNone_iff_eq_none.mp] at h
  exact h

end Esr
