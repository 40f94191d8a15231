import Esr.Strings

/-! # How a URI is cut

The cuts that every reader of `esr://[org@]host[:port]/<segment>(/<segment>)*[?params]`
makes, apart from what it then checks: `pieces` cuts a text at its scheme, at the first
`/` behind it and at the first `?` behind that; `cutAuthority` cuts the authority at the
first `@` and what follows at the first `:`; `parts` are the segments of a path.

A text can be put together again from its pieces in one way (`pieces_text`), and no
piece has the separator it was cut at.
-/
namespace Esr

/-- `String.split(s, sep)`, and `s.split(sep)`. -/
def split (sep : Char) (s : String) : List String := (s.toList.splitOn sep).map String.ofList

/-- The segments of a path, less the empty ones. -/
def parts (path : String) : List String := (split '/' path).filter fun p => p ≠ ""

/-- `String.downcase/1` and `s.lower()`, on ASCII. -/
def lowerAscii (s : String) : String := String.ofList (s.toList.map Char.toLower)

/-- The regular expression `^[0-9a-f]{64}$`, whose `$` also stands in front of a final
newline. -/
def sha256Pattern (s : String) : Bool :=
  (chompNewline s.toList).length = 64 &&
    (chompNewline s.toList).all fun c => c.isDigit || ('a' ≤ c && c ≤ 'f')

/-- An authority cut at its separators. -/
structure Authority where
  org : Option String
  host : String
  port : Option String
deriving DecidableEq

/-- The authority of a text, its path and its query, behind the scheme. -/
structure Pieces where
  authority : String
  path : String
  query : Option String
deriving DecidableEq

/-- The text in front of the first separator, and the text behind it. -/
def cutFirst (sep : Char) (s : String) : String × Option String :=
  match splitParts2 sep s with
  | [a, b] => (a, some b)
  | _ => (s, none)

/-- The organisation in front of the first `@`, and what is left. -/
def cutOrg (authority : String) : Option String × String :=
  match splitParts2 '@' authority with
  | [o, h] => (some o, h)
  | _ => (none, authority)

def cutAuthority (authority : String) : Authority :=
  { org := (cutOrg authority).1
    host := (cutFirst ':' (cutOrg authority).2).1
    port := (cutFirst ':' (cutOrg authority).2).2 }

def pieces (s : String) : Option Pieces :=
  (stripPrefix "esr://" s).bind fun rest =>
    (cutFirst '/' rest).2.map fun pathAndQuery =>
      { authority := (cutFirst '/' rest).1
        path := (cutFirst '?' pathAndQuery).1
        query := (cutFirst '?' pathAndQuery).2 }

/-- The first segment. -/
def typeOf (segments : List String) : String := segments.headD ""

/-- The last segment. -/
def idOf (segments : List String) : String := segments.getLastD ""

/-! ## Lower case -/

theorem toLower_toLower (c : Char) : c.toLower.toLower = c.toLower := by
  unfold Char.toLower
  by_cases h : 'A'.val ≤ c.val ∧ c.val ≤ 'Z'.val
  · rw [dif_pos h, dif_neg]
    rintro ⟨-, hle⟩
    simp only [UInt32.le_iff_toNat_le, UInt32.toNat_add] at h hle
    simp at h hle
    omega
  · rw [dif_neg h, dif_neg h]

theorem lowerAscii_lowerAscii (s : String) : lowerAscii (lowerAscii s) = lowerAscii s := by
  unfold lowerAscii
  rw [String.toList_ofList, List.map_map]
  exact congrArg String.ofList (List.map_congr_left fun c _ => toLower_toLower c)

/-! ## Single cuts -/

theorem splitParts2_cases (sep : Char) (s : String) :
    (∃ a b, splitParts2 sep s = [a, b] ∧ s = a ++ String.singleton sep ++ b ∧ sep ∉ a.toList) ∨
      splitParts2 sep s = [s] ∧ sep ∉ s.toList := by
  by_cases h : sep ∈ s.toList
  · left
    cases hcut : cutAt sep s.toList with
    | none => exact absurd h (cutAt_eq_none.mp hcut)
    | some p =>
      have hsplit : splitParts2 sep s = [String.ofList p.1, String.ofList p.2] := by
        unfold splitParts2
        rw [hcut]
      exact ⟨_, _, hsplit, splitParts2_eq_pair.mp hsplit⟩
  · exact .inr ⟨splitParts2_eq_whole h, h⟩

variable {sep c : Char} {s a : String}

theorem cutFirst_eq_some {b : String} :
    cutFirst sep s = (a, some b) ↔ s = a ++ String.singleton sep ++ b ∧ sep ∉ a.toList := by
  unfold cutFirst
  rcases splitParts2_cases sep s with ⟨x, y, hsplit, hs⟩ | ⟨hsplit, hs⟩
  · rw [← splitParts2_eq_pair, hsplit]
    simp
  · rw [← splitParts2_eq_pair, hsplit]
    simp

theorem cutFirst_eq_none : cutFirst sep s = (a, none) ↔ a = s ∧ sep ∉ s.toList := by
  unfold cutFirst
  rcases splitParts2_cases sep s with ⟨x, y, hsplit, hs, -⟩ | ⟨hsplit, hs⟩
  · have hmem : sep ∈ s.toList := by
      rw [hs]
      simp
    rw [hsplit]
    simp [hmem]
  · rw [hsplit]
    simp [hs, eq_comm]

theorem cutFirst_of_not_mem (h : sep ∉ s.toList) : cutFirst sep s = (s, none) :=
  cutFirst_eq_none.mpr ⟨rfl, h⟩

theorem cutFirst_append (h : sep ∉ a.toList) (b : String) :
    cutFirst sep (a ++ String.singleton sep ++ b) = (a, some b) :=
  cutFirst_eq_some.mpr ⟨rfl, h⟩

theorem not_mem_cutFirst (sep : Char) (s : String) : sep ∉ (cutFirst sep s).1.toList := by
  unfold cutFirst
  rcases splitParts2_cases sep s with ⟨x, y, hsplit, -, hx⟩ | ⟨hsplit, hs⟩
  · rw [hsplit]
    exact hx
  · rw [hsplit]
    exact hs

theorem mem_of_mem_cutFirst (h : c ∈ (cutFirst sep s).1.toList) : c ∈ s.toList := by
  cases hcut : cutFirst sep s with
  | mk a b =>
    rw [hcut] at h
    cases b with
    | none =>
      obtain ⟨rfl, -⟩ := cutFirst_eq_none.mp hcut
      exact h
    | some b =>
      obtain ⟨rfl, -⟩ := cutFirst_eq_some.mp hcut
      rw [String.toList_append, String.toList_append]
      exact List.mem_append_left _ (List.mem_append_left _ h)

theorem cutOrg_append {o : String} (h : '@' ∉ o.toList) (b : String) :
    cutOrg (o ++ "@" ++ b) = (some o, b) := by
  have hsplit : splitParts2 '@' (o ++ "@" ++ b) = [o, b] := splitParts2_eq_pair.mpr ⟨rfl, h⟩
  unfold cutOrg
  rw [hsplit]

theorem cutOrg_of_not_mem (h : '@' ∉ a.toList) : cutOrg a = (none, a) := by
  unfold cutOrg
  rw [splitParts2_eq_whole h]

theorem cutOrg_cases (a : String) :
    (∃ o b, cutOrg a = (some o, b) ∧ a = o ++ "@" ++ b ∧ '@' ∉ o.toList) ∨
      cutOrg a = (none, a) ∧ '@' ∉ a.toList := by
  unfold cutOrg
  rcases splitParts2_cases '@' a with ⟨o, b, hsplit, ha, hno⟩ | ⟨hsplit, hno⟩
  · rw [hsplit]
    exact .inl ⟨o, b, rfl, ha, hno⟩
  · rw [hsplit]
    exact .inr ⟨rfl, hno⟩

theorem cutOrg_of_fst {o : String} (h : (cutOrg a).1 = some o) : '@' ∈ a.toList := by
  rcases cutOrg_cases a with ⟨x, b, -, ha, -⟩ | ⟨hcut, -⟩
  · rw [ha]
    simp
  · rw [hcut] at h
    cases h

theorem mem_of_mem_host (h : c ∈ (cutAuthority a).host.toList) : c ∈ a.toList := by
  have hleft : c ∈ (cutOrg a).2.toList := mem_of_mem_cutFirst h
  rcases cutOrg_cases a with ⟨o, b, hcut, ha, -⟩ | ⟨hcut, -⟩
  · rw [hcut] at hleft
    rw [ha, String.toList_append]
    exact List.mem_append_right _ hleft
  · rwa [hcut] at hleft

theorem of_mem_org {o : String} (h : (cutAuthority a).org = some o) (hc : c ∈ o.toList) :
    c ≠ '@' ∧ c ∈ a.toList := by
  have horg : (cutOrg a).1 = some o := h
  rcases cutOrg_cases a with ⟨o', b, hcut, ha, hno⟩ | ⟨hcut, -⟩
  · rw [hcut] at horg
    obtain rfl := Option.some.inj horg
    refine ⟨?_, ?_⟩
    · rintro rfl
      exact hno hc
    · rw [ha, String.toList_append, String.toList_append]
      exact List.mem_append_left _ (List.mem_append_left _ hc)
  · rw [hcut] at horg
    cases horg

/-! ## The pieces of a text -/

theorem pieces_eq_some {p : Pieces} : pieces s = some p ↔
    ∃ rest, s = "esr://" ++ (p.authority ++ "/" ++ rest) ∧ '/' ∉ p.authority.toList ∧
      cutFirst '?' rest = (p.path, p.query) := by
  unfold pieces
  rw [Option.bind_eq_some_iff]
  constructor
  · rintro ⟨rest, hrest, hcut⟩
    obtain ⟨pathAndQuery, hpath, rfl⟩ := Option.map_eq_some_iff.mp hcut
    obtain ⟨hs, hno⟩ := cutFirst_eq_some.mp (Prod.ext (y := ((cutFirst '/' rest).1,
      some pathAndQuery)) rfl hpath)
    exact ⟨pathAndQuery, by rw [stripPrefix_eq_some.mp hrest]; exact congrArg _ hs, hno, rfl⟩
  · rintro ⟨pathAndQuery, rfl, hno, hcut⟩
    refine ⟨_, stripPrefix_eq_some.mpr rfl, ?_⟩
    have hfirst : cutFirst '/' (p.authority ++ "/" ++ pathAndQuery) =
        (p.authority, some pathAndQuery) := cutFirst_append hno pathAndQuery
    rw [hfirst, Option.map_some, hcut]

/-- The text that these pieces make up. -/
def Pieces.text (p : Pieces) : String :=
  "esr://" ++ (p.authority ++ "/" ++ (p.path ++ (p.query.map fun q => "?" ++ q).getD ""))

theorem pieces_text {p : Pieces} (ha : '/' ∉ p.authority.toList) (hp : '?' ∉ p.path.toList) :
    pieces p.text = some p := by
  refine pieces_eq_some.mpr ⟨_, rfl, ha, ?_⟩
  cases hq : p.query with
  | none =>
    rw [Option.map_none, Option.getD_none, String.append_empty]
    exact cutFirst_of_not_mem hp
  | some q =>
    rw [Option.map_some, Option.getD_some, ← String.append_assoc]
    exact cutFirst_append hp q

/-! ## Segments -/

theorem mem_of_mem_splitOn {d : Char} {cs w : List Char} (h : w ∈ cs.splitOn c) (hd : d ∈ w) :
    d ≠ c ∧ d ∈ cs := by
  induction cs generalizing w with
  | nil =>
    obtain rfl : w = [] := by simpa using h
    cases hd
  | cons x cs ih =>
    rw [List.splitOn_cons_eq_if_modifyHead] at h
    split at h
    · rcases List.mem_cons.mp h with rfl | h
      · cases hd
      · exact ⟨(ih h hd).1, List.mem_cons_of_mem _ (ih h hd).2⟩
    · rename_i hx
      have hne : x ≠ c := fun he => hx (beq_iff_eq.mpr he)
      cases hsplit : cs.splitOn c with
      | nil => exact absurd hsplit (List.splitOn_ne_nil _ _)
      | cons v vs =>
        rw [hsplit, List.modifyHead_cons] at h
        rw [hsplit] at ih
        rcases List.mem_cons.mp h with rfl | h
        · rcases List.mem_cons.mp hd with rfl | hd
          · exact ⟨hne, List.mem_cons_self⟩
          · have hrest := ih List.mem_cons_self hd
            exact ⟨hrest.1, List.mem_cons_of_mem _ hrest.2⟩
        · have hrest := ih (List.mem_cons_of_mem _ h) hd
          exact ⟨hrest.1, List.mem_cons_of_mem _ hrest.2⟩

theorem of_mem_parts {path seg : String} (h : seg ∈ parts path) :
    seg ≠ "" ∧ ∀ c ∈ seg.toList, c ≠ '/' ∧ c ∈ path.toList := by
  obtain ⟨hmem, hne⟩ := List.mem_filter.mp h
  obtain ⟨w, hw, rfl⟩ := List.mem_map.mp hmem
  refine ⟨of_decide_eq_true hne, fun c hc => ?_⟩
  rw [String.toList_ofList] at hc
  exact mem_of_mem_splitOn hw hc

theorem parts_slash (path : String) : parts ("/" ++ path) = parts path := by
  have hsplit : split '/' ("/" ++ path) = "" :: split '/' path := by
    unfold split
    have hcons : ("/" ++ path).toList = '/' :: path.toList := String.toList_append
    rw [hcons, List.splitOn_cons_eq_if_modifyHead, if_pos (beq_self_eq_true '/'), List.map_cons,
      String.ofList_nil]
  unfold parts
  rw [hsplit, List.filter_cons_of_neg (by simp)]

theorem of_mem_intercalate {segments : List String} (h : c ∈ ("/".intercalate segments).toList) :
    c = '/' ∨ ∃ seg ∈ segments, c ∈ seg.toList := by
  have hslash : ("/" : String).toList = ['/'] := rfl
  rw [String.toList_intercalate, hslash] at h
  induction segments with
  | nil => cases h
  | cons seg segments ih =>
    cases segments with
    | nil =>
      have hmem : c ∈ seg.toList := by simpa using h
      exact .inr ⟨seg, List.mem_cons_self, hmem⟩
    | cons next segments =>
      rw [List.map_cons, List.map_cons, List.intercalate_cons_cons, ← List.map_cons,
        List.append_assoc] at h
      rcases List.mem_append.mp h with hseg | hrest
      · exact .inr ⟨seg, List.mem_cons_self, hseg⟩
      · rcases List.mem_append.mp hrest with hsep | hrest
        · exact .inl (List.mem_singleton.mp hsep)
        · rcases ih hrest with hc | ⟨other, hother, hc⟩
          · exact .inl hc
          · exact .inr ⟨other, List.mem_cons_of_mem _ hother, hc⟩

theorem parts_intercalate {segments : List String}
    (h : ∀ seg ∈ segments, seg ≠ "" ∧ '/' ∉ seg.toList) :
    parts ("/".intercalate segments) = segments := by
  by_cases hnil : segments = []
  · rw [hnil]
    rfl
  · have hsplit : split '/' ("/".intercalate segments) = segments := by
      unfold split
      have hslash : ("/" : String).toList = ['/'] := rfl
      rw [String.toList_intercalate, hslash, List.splitOn_intercalate, List.map_map]
      · refine (List.map_congr_left fun seg _ => ?_).trans (List.map_id _)
        exact String.ofList_toList
      · intro l hl
        obtain ⟨seg, hseg, rfl⟩ := List.mem_map.mp hl
        exact (h seg hseg).2
      · exact mt List.map_eq_nil_iff.mp hnil
    unfold parts
    rw [hsplit]
    exact List.filter_eq_self.mpr fun seg hseg => decide_eq_true (h seg hseg).1

end Esr
