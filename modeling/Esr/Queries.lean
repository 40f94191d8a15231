import Mathlib.Data.List.Find
import Esr.Ets
import Esr.Percent
import Esr.Strings

/-! # Query strings

`URI.decode_query/1` cuts a query at every `&`, and what it finds there at the first
`=`, into a map; `urllib.parse.parse_qsl` does the same, for a dict.  They part at two
places.  The first reads a pair that is empty, unless it is the last, and the second
passes it over; and the first keeps bytes that are no text, where the second puts a
replacement.

`sameParams_iff` says which queries the two read alike.  What `urlencode` writes is
one of them, and is read back as it was given.
-/
namespace Esr

/-- The name and the value of one pair. -/
def cutPair (p : List Char) : List Char × List Char := (cutAt '=' p).getD (p, [])

/-- The pairs that `decode_query` takes off the front one after the other, until
nothing is left. -/
def takenPairs : List (List Char) → List (List Char)
  | [] => []
  | p :: ps => if p = [] ∧ ps = [] then [] else p :: takenPairs ps

/-- The pairs of a query that `decode_query` reads. -/
def queryPairs (q : List Char) : List (List Char) := takenPairs (q.splitOn '&')

/-- `URI.decode_query/1`: a later pair takes the place of an earlier one. -/
def decodeQuery (q : List Char) : Ets (List UInt8) (List UInt8) :=
  Ets.empty.insertEach ((queryPairs q).map fun p =>
    (formDecode (cutPair p).1, formDecode (cutPair p).2))

/-- `urllib.parse.parse_qsl(q, keep_blank_values=True)`. -/
def parseQsl (q : List Char) : List (String × String) :=
  ((q.splitOn '&').filter fun p => p ≠ []).map fun p =>
    (String.ofList (unquotePlus (cutPair p).1), String.ofList (unquotePlus (cutPair p).2))

/-- `dict(rows)`. -/
def dictOf (rows : List (String × String)) : Ets String String := Ets.empty.insertEach rows

/-- One pair of what `urlencode` writes. -/
def rowText (r : List UInt8 × List UInt8) : List Char := quotePlus r.1 ++ '=' :: quotePlus r.2

/-- `urllib.parse.urlencode`, of the bytes of names and values. -/
def urlencode (rows : List (List UInt8 × List UInt8)) : List Char :=
  ['&'].intercalate (rows.map rowText)

/-- The bytes of a map are those of the texts of a dict. -/
structure SameParams (m : Ets (List UInt8) (List UInt8)) (d : Ets String String) : Prop where
  texts : ∀ k : String, m.lookup (bytesOf k.toList) =
    (d.lookup k).map fun v => bytesOf v.toList
  noOther : ∀ k, ¬IsText k → m.lookup k = none

/-- The last pair with this name. -/
def lastPair (ps : List (List Char)) (k : List UInt8) : Option (List Char) :=
  ps.reverse.find? fun p => formDecode (cutPair p).1 = k

/-- **The queries read alike**: the names are texts, and so is the last value of each;
and where the last pair without a name is empty, the last one that is not is `=`. -/
structure ReadAlike (q : List Char) : Prop where
  names : ∀ p ∈ queryPairs q, IsText (formDecode (cutPair p).1)
  values : ∀ k p, lastPair (queryPairs q) k = some p → IsText (formDecode (cutPair p).2)
  nameless : lastPair (queryPairs q) [] = some [] →
    lastPair ((queryPairs q).filter fun p => p ≠ []) [] = some ['=']

/-! ## One pair -/

variable {p : List Char} {ps : List (List Char)} {rows : List (List UInt8 × List UInt8)}

theorem cutPair_of_cut {n v : List Char} (h : p = n ++ '=' :: v) (hn : '=' ∉ n) :
    cutPair p = (n, v) := by
  unfold cutPair
  rw [cutAt_eq_some.mpr ⟨h, hn⟩, Option.getD_some]

theorem eq_of_cutPair (h : cutPair p = ([], [])) : p = [] ∨ p = ['='] := by
  unfold cutPair at h
  cases hcut : cutAt '=' p with
  | none =>
    rw [hcut, Option.getD_none] at h
    exact .inl (congrArg Prod.fst h)
  | some r =>
    rw [hcut, Option.getD_some] at h
    rw [h, cutAt_eq_some] at hcut
    exact .inr hcut.1

/-! ## Last pairs -/

theorem find?_of_weaker {α : Type} {p q : α → Bool} {a : α} {xs : List α}
    (h : xs.find? q = some a) (hp : p a = true) :
    xs.find? (fun x => p x && q x) = some a := by
  induction xs with
  | nil => cases h
  | cons x xs ih =>
    rw [List.find?_cons] at h ⊢
    cases hq : q x with
    | false =>
      rw [hq] at h
      rw [Bool.and_false]
      exact ih h
    | true =>
      rw [hq] at h
      obtain rfl := Option.some.inj h
      rw [hp, Bool.and_true]

theorem mem_of_lastPair {k : List UInt8} (h : lastPair ps k = some p) :
    p ∈ ps ∧ formDecode (cutPair p).1 = k := by
  unfold lastPair at h
  have hname := List.find?_some h
  exact ⟨List.mem_reverse.mp (List.mem_of_find?_eq_some h), of_decide_eq_true hname⟩

theorem exists_lastPair (h : p ∈ ps) : ∃ r, lastPair ps (formDecode (cutPair p).1) = some r := by
  rw [← Option.isSome_iff_exists]
  exact List.find?_isSome.mpr ⟨p, List.mem_reverse.mpr h, decide_eq_true rfl⟩

theorem lastPair_filter (ps : List (List Char)) (k : List UInt8) :
    lastPair (ps.filter fun p => p ≠ []) k =
      ps.reverse.find? fun p => decide (p ≠ []) && decide (formDecode (cutPair p).1 = k) := by
  unfold lastPair
  rw [← List.filter_reverse, List.find?_filter]
  simp

theorem lastPair_filter_of_some {k : List UInt8} (h : lastPair ps k = some p) (hp : p ≠ []) :
    lastPair (ps.filter fun p => p ≠ []) k = some p := by
  rw [lastPair_filter]
  exact find?_of_weaker h (decide_eq_true hp)

theorem lastPair_filter_of_none {k : List UInt8} (h : lastPair ps k = none) :
    lastPair (ps.filter fun p => p ≠ []) k = none := by
  rw [lastPair_filter]
  refine List.find?_eq_none.mpr fun p hp hboth => ?_
  exact List.find?_eq_none.mp h p hp (Bool.and_eq_true_iff.mp hboth).2

/-! ## The two readings -/

theorem filter_takenPairs (ps : List (List Char)) :
    (takenPairs ps).filter (fun p => p ≠ []) = ps.filter fun p => p ≠ [] := by
  induction ps with
  | nil => rfl
  | cons p ps ih =>
    rw [takenPairs]
    split
    · rename_i hlast
      rw [hlast.1, hlast.2]
      rfl
    · rw [List.filter_cons, List.filter_cons, ih]

theorem lookup_decodeQuery (q : List Char) (k : List UInt8) :
    (decodeQuery q).lookup k =
      (lastPair (queryPairs q) k).map fun p => formDecode (cutPair p).2 := by
  unfold decodeQuery lastPair
  rw [Ets.lookup_insertEach, Ets.lookup_empty, Option.or_none, ← List.map_reverse, List.find?_map,
    Option.map_map]
  rfl

theorem lookup_dictOf (q : List Char) (k : String) :
    (dictOf (parseQsl q)).lookup k =
      (((queryPairs q).filter fun p => p ≠ []).reverse.find? fun p =>
        decide (String.ofList (unquotePlus (cutPair p).1) = k)).map fun p =>
          String.ofList (unquotePlus (cutPair p).2) := by
  unfold dictOf parseQsl queryPairs
  rw [filter_takenPairs, Ets.lookup_insertEach, Ets.lookup_empty, Option.or_none,
    ← List.map_reverse, List.find?_map, Option.map_map]
  rfl

theorem name_eq_iff {n : List Char} {k : String} (h : IsText (formDecode n)) :
    String.ofList (unquotePlus n) = k ↔ formDecode n = bytesOf k.toList := by
  rw [← bytesOf_unquotePlus.mpr h]
  constructor
  · rintro rfl
    rw [String.toList_ofList]
  · intro hbytes
    rw [bytesOf_injective hbytes, String.ofList_toList]

theorem lookup_dictOf_of_names {q : List Char}
    (h : ∀ p ∈ queryPairs q, IsText (formDecode (cutPair p).1)) (k : String) :
    (dictOf (parseQsl q)).lookup k =
      (lastPair ((queryPairs q).filter fun p => p ≠ []) (bytesOf k.toList)).map fun p =>
        String.ofList (unquotePlus (cutPair p).2) := by
  rw [lookup_dictOf]
  unfold lastPair
  refine congrArg (Option.map _) (List.find?_congr fun p hp => ?_)
  have hmem : p ∈ queryPairs q := (List.mem_filter.mp (List.mem_reverse.mp hp)).1
  rw [decide_eq_decide]
  exact name_eq_iff (h p hmem)

theorem value_eq {v : List Char} (h : IsText (formDecode v)) :
    bytesOf (String.ofList (unquotePlus v)).toList = formDecode v := by
  rw [String.toList_ofList]
  exact bytesOf_unquotePlus.mpr h

theorem SameParams.of_readAlike {q : List Char} (h : ReadAlike q) :
    SameParams (decodeQuery q) (dictOf (parseQsl q)) := by
  refine ⟨fun k => ?_, fun k hk => ?_⟩
  · rw [lookup_decodeQuery, lookup_dictOf_of_names h.names, Option.map_map]
    by_cases hempty : lastPair (queryPairs q) (bytesOf k.toList) = some []
    · -- the empty pair gives its name an empty value, and so does `=`
      have hk : bytesOf k.toList = [] := (mem_of_lastPair hempty).2.symm
      rw [hk] at hempty ⊢
      rw [hempty, h.nameless hempty]
      rfl
    · have hsame : lastPair ((queryPairs q).filter fun p => p ≠ []) (bytesOf k.toList) =
          lastPair (queryPairs q) (bytesOf k.toList) := by
        cases hlast : lastPair (queryPairs q) (bytesOf k.toList) with
        | none => exact lastPair_filter_of_none hlast
        | some p =>
          refine lastPair_filter_of_some hlast ?_
          rintro rfl
          exact hempty hlast
      rw [hsame]
      cases hlast : lastPair (queryPairs q) (bytesOf k.toList) with
      | none => rfl
      | some p => exact congrArg some (value_eq (h.values _ p hlast)).symm
  · rw [lookup_decodeQuery]
    cases hlast : lastPair (queryPairs q) k with
    | none => rfl
    | some p =>
      obtain ⟨hmem, hname⟩ := mem_of_lastPair hlast
      exact absurd (hname ▸ h.names p hmem) hk

section
variable {q : List Char} (h : SameParams (decodeQuery q) (dictOf (parseQsl q)))
include h

theorem SameParams.names : ∀ p ∈ queryPairs q, IsText (formDecode (cutPair p).1) := by
  intro p hp
  by_contra hno
  obtain ⟨r, hr⟩ := exists_lastPair hp
  have hnone := h.noOther _ hno
  rw [lookup_decodeQuery, hr] at hnone
  cases hnone

theorem SameParams.value {k : List UInt8} {p : List Char}
    (hlast : lastPair (queryPairs q) k = some p) :
    ∃ r, lastPair ((queryPairs q).filter fun p => p ≠ []) k = some r ∧
      formDecode (cutPair p).2 = bytesOf (unquotePlus (cutPair r).2) := by
  obtain ⟨hmem, hname⟩ := mem_of_lastPair hlast
  obtain ⟨cs, rfl⟩ := isText_iff.mp (hname ▸ h.names p hmem)
  have htexts := h.texts (String.ofList cs)
  rw [lookup_decodeQuery, lookup_dictOf_of_names h.names, String.toList_ofList, hlast,
    Option.map_some, Option.map_map] at htexts
  obtain ⟨r, hr, hvalue⟩ := Option.map_eq_some_iff.mp htexts.symm
  refine ⟨r, hr, hvalue.symm.trans ?_⟩
  show bytesOf (String.ofList _).toList = _
  rw [String.toList_ofList]

theorem SameParams.readAlike : ReadAlike q where
  names := h.names
  values := by
    intro k p hlast
    obtain ⟨r, -, hvalue⟩ := h.value hlast
    rw [hvalue]
    exact isText_bytesOf _
  nameless := by
    intro hlast
    obtain ⟨r, hr, hvalue⟩ := h.value hlast
    obtain ⟨hmem, hname⟩ := mem_of_lastPair hr
    have hname' : (cutPair r).1 = [] := formDecode_eq_nil.mp hname
    have hvalue' : (cutPair r).2 = [] :=
      unquotePlus_eq_nil.mp (bytesOf_eq_nil.mp hvalue.symm)
    have hne : r ≠ [] := of_decide_eq_true (List.mem_filter.mp hmem).2
    obtain rfl | rfl := eq_of_cutPair (Prod.ext hname' hvalue')
    · exact absurd rfl hne
    · exact hr

end

/-- **Two readers of one query** agree exactly on the queries that are read alike. -/
theorem sameParams_iff (q : List Char) :
    SameParams (decodeQuery q) (dictOf (parseQsl q)) ↔ ReadAlike q :=
  ⟨SameParams.readAlike, SameParams.of_readAlike⟩

/-! ## What `urlencode` writes -/

theorem cutPair_rowText (r : List UInt8 × List UInt8) :
    cutPair (rowText r) = (quotePlus r.1, quotePlus r.2) :=
  cutPair_of_cut rfl fun h => (quotePlus_chars h).2 rfl

theorem not_mem_rowText (r : List UInt8 × List UInt8) : '&' ∉ rowText r := by
  intro h
  rcases List.mem_append.mp h with hname | hvalue
  · exact (quotePlus_chars hname).1 rfl
  · rcases List.mem_cons.mp hvalue with heq | hvalue
    · exact absurd heq (by decide)
    · exact (quotePlus_chars hvalue).1 rfl

theorem rowText_ne_nil (r : List UInt8 × List UInt8) : rowText r ≠ [] :=
  List.append_ne_nil_of_right_ne_nil _ (List.cons_ne_nil _ _)

theorem splitOn_urlencode (h : rows ≠ []) : (urlencode rows).splitOn '&' = rows.map rowText := by
  refine List.splitOn_intercalate _ ?_ (mt List.map_eq_nil_iff.mp h)
  intro p hp
  obtain ⟨r, -, rfl⟩ := List.mem_map.mp hp
  exact not_mem_rowText r

theorem takenPairs_of_ne (h : ∀ p ∈ ps, p ≠ []) : takenPairs ps = ps := by
  induction ps with
  | nil => rfl
  | cons p ps ih =>
    rw [takenPairs, if_neg fun hlast => h p List.mem_cons_self hlast.1,
      ih fun q hq => h q (List.mem_cons_of_mem _ hq)]

theorem rowTexts_ne_nil : ∀ p ∈ rows.map rowText, p ≠ [] := by
  intro p hp
  obtain ⟨r, -, rfl⟩ := List.mem_map.mp hp
  exact rowText_ne_nil r

theorem decodeQuery_urlencode (h : rows ≠ []) :
    decodeQuery (urlencode rows) = Ets.empty.insertEach rows := by
  unfold decodeQuery queryPairs
  rw [splitOn_urlencode h, takenPairs_of_ne rowTexts_ne_nil, List.map_map]
  refine congrArg _ ((List.map_congr_left fun r _ => ?_).trans (List.map_id rows))
  show (formDecode (cutPair (rowText r)).1, formDecode (cutPair (rowText r)).2) = r
  rw [cutPair_rowText, formDecode_quotePlus, formDecode_quotePlus]

theorem parseQsl_urlencode (h : rows ≠ []) :
    parseQsl (urlencode rows) = rows.map fun r =>
      (String.ofList (unquotePlus (quotePlus r.1)), String.ofList (unquotePlus (quotePlus r.2))) := by
  unfold parseQsl
  rw [splitOn_urlencode h, List.filter_eq_self.mpr fun p hp => decide_eq_true (rowTexts_ne_nil p hp),
    List.map_map]
  refine List.map_congr_left fun r _ => ?_
  show (String.ofList (unquotePlus (cutPair (rowText r)).1),
    String.ofList (unquotePlus (cutPair (rowText r)).2)) = _
  rw [cutPair_rowText]

end Esr
