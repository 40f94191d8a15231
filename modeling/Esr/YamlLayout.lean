import Esr.YamlReader

/-! # The lines of the writer

`Writer.emit` joins texts that are joins already.  Here the same text is a list of rows,
each with its indentation (`emit_rows`), for the values a configuration is made of: maps
with texts for keys, lists and scalars.
-/
namespace Esr
namespace Yaml
namespace Writer
open Reader

/-- A minus, or nothing. -/
def IsSign (cs : List Char) : Prop := cs = [] ∨ cs = ['-']

/-- ASCII digits. -/
def IsDigits (cs : List Char) : Prop := cs ≠ [] ∧ ∀ c ∈ cs, c.isDigit = true

/-- The texts of floats: digits, a point and digits, and an exponent for great ones and
small ones. -/
def IsFloatText (t : String) : Prop :=
  ∃ sign ds fraction exponent, t.toList = sign ++ (ds ++ '.' :: (fraction ++ exponent)) ∧
    IsSign sign ∧ IsDigits ds ∧ IsDigits fraction ∧
      (exponent = [] ∨ ∃ sign' ds', exponent = 'e' :: (sign' ++ ds') ∧ IsSign sign' ∧ IsDigits ds')

/-- **A plain value**: of maps with texts for keys, lists, and scalars.  The text of a
float is the one that a reader gives for it as well. -/
inductive Plain (floatText : String → String) : Value → Prop
  | null : Plain floatText .null
  | bool (b : Bool) : Plain floatText (.bool b)
  | int (n : Int) : Plain floatText (.int n)
  | float (t : String) (ht : IsFloatText t) (hread : floatText t = t) : Plain floatText (.float t)
  | str (s : String) : Plain floatText (.str s)
  | list (vs : List Value) (h : ∀ v ∈ vs, Plain floatText v) : Plain floatText (.list vs)
  | map (es : Entries) (hkeys : ∀ e ∈ es, ∃ key, e.1 = .str key) (hsorted : es.Pairwise Before)
      (h : ∀ e ∈ es, Plain floatText e.2) : Plain floatText (.map es)

/-! ## Scalars -/

/-- A list or a map. -/
def isCollection : Value → Bool
  | .list _ | .map _ => true
  | _ => false

/-- The text of a scalar. -/
def scalarText : Value → String
  | .null => "null"
  | .bool b => if b then "true" else "false"
  | .int n => toString n
  | .float t => t
  | .str s => encodeString s
  | .list _ | .map _ => ""

variable {v : Value} {rs : List Row} {n : Nat}

theorem encodeScalar_text (h : isCollection v = false) : encodeScalar v = .ok (scalarText v) := by
  cases v <;> first | rfl | cases h

/-! ## Rows -/

/-- Something stands below a key or behind a dash that is a collection of this kind. -/
def isBlock : Value → Bool
  | .list (_ :: _) | .map (_ :: _) => true
  | _ => false

/-- What follows a key on its line. -/
def tailText : Value → String
  | .map [] => ": \x7b\x7d"
  | .list [] => ": []"
  | .map (_ :: _) | .list (_ :: _) => ":"
  | v => ": " ++ scalarText v

theorem tailText_scalar (h : isCollection v = false) : tailText v = ": " ++ scalarText v := by
  cases v <;> first | rfl | cases h

/-- A line: how far it is indented, and its text. -/
abbrev Row := Nat × String

/-- Rows behind a dash. -/
def dashed (n : Nat) : List Row → List Row
  | [] => [(n, "- ")]
  | r :: rs => (n, "- " ++ trimLeading r.2) :: rs

mutual

/-- The rows of a value. -/
def rows (n : Nat) : Value → List Row
  | .map es => entryRows n es
  | .list [] => [(0, "[]")]
  | .list (v :: vs) => itemRows n (v :: vs)
  | v => [(n, scalarText v)]

/-- The rows of entries. -/
def entryRows (n : Nat) : Entries → List Row
  | [] => []
  | (k, v) :: es =>
      (n, scalarText k ++ tailText v) ::
        ((if isBlock v then rows (n + 2) v else []) ++ entryRows n es)

/-- The rows of elements. -/
def itemRows (n : Nat) : List Value → List Row
  | [] => []
  | v :: vs =>
      (if isCollection v then dashed n (rows (n + 2) v) else [(n, "- " ++ scalarText v)]) ++
        itemRows n vs

end

theorem rows_scalar (n : Nat) (h : isCollection v = false) : rows n v = [(n, scalarText v)] := by
  cases v with
  | list vs => cases h
  | map es => cases h
  | _ => rw [rows] <;> simp

/-- A row with its indentation. -/
def render (r : Row) : String := pad r.1 ++ r.2

/-- The text of rows. -/
def text (rs : List Row) : String := "\n".intercalate (rs.map render)

theorem text_append {rs' : List Row} (h : rs ≠ []) (h' : rs' ≠ []) :
    text (rs ++ rs') = text rs ++ "\n" ++ text rs' := by
  rw [text, List.map_append, String.intercalate_append_of_ne_nil (by simpa) (by simpa)]
  rfl

theorem text_cons {r : Row} (h : rs ≠ []) : text (r :: rs) = render r ++ "\n" ++ text rs := by
  rw [show r :: rs = [r] ++ rs from rfl, text_append (by simp) h]
  simp [text]

theorem text_singleton (r : Row) : text [r] = render r := by simp [text]

theorem intercalate_text {α : Type} {f : α → List Row} (hne : ∀ a, f a ≠ []) (as : List α) :
    "\n".intercalate (as.map fun a => text (f a)) = text (as.flatMap f) := by
  induction as with
  | nil => rfl
  | cons a as ih =>
    cases as with
    | nil => simp
    | cons b bs =>
      have hrest : (b :: bs).flatMap f ≠ [] := by simp [hne b]
      rw [List.map_cons, String.intercalate_cons_of_ne_nil (by simp), ih,
        ← text_append (hne a) hrest]
      rfl

/-- The rows of one entry. -/
def entryBlock (n : Nat) (e : Value × Value) : List Row :=
  (n, scalarText e.1 ++ tailText e.2) :: if isBlock e.2 then rows (n + 2) e.2 else []

/-- The rows of one element. -/
def itemBlock (n : Nat) (v : Value) : List Row :=
  if isCollection v then dashed n (rows (n + 2) v) else [(n, "- " ++ scalarText v)]

theorem itemBlock_collection (n : Nat) (h : isCollection v = true) :
    itemBlock n v = dashed n (rows (n + 2) v) := if_pos h

theorem entryRows_eq (n : Nat) (es : Entries) : entryRows n es = es.flatMap (entryBlock n) := by
  induction es with
  | nil => rw [entryRows]; rfl
  | cons e es ih => rw [entryRows, ih]; rfl

theorem itemRows_eq (n : Nat) (vs : List Value) : itemRows n vs = vs.flatMap (itemBlock n) := by
  induction vs with
  | nil => rw [itemRows]; rfl
  | cons v vs ih => rw [itemRows, ih]; rfl

theorem entryBlock_ne (n : Nat) (e : Value × Value) : entryBlock n e ≠ [] :=
  List.cons_ne_nil _ _

theorem itemBlock_ne (n : Nat) (v : Value) : itemBlock n v ≠ [] := by
  unfold itemBlock
  split
  · cases rows (n + 2) v <;> simp [dashed]
  · simp

theorem rows_ne (n : Nat) (h : isBlock v = true) : rows n v ≠ [] := by
  cases v with
  | list vs =>
    cases vs with
    | nil => cases h
    | cons v vs =>
      rw [rows, itemRows_eq]
      simp [itemBlock_ne n v]
  | map es =>
    cases es with
    | nil => cases h
    | cons e es =>
      rw [rows, entryRows_eq]
      simp [entryBlock]
  | _ => cases h

/-! ## Behind a dash -/

/-- Something of the text stays when white space is trimmed. -/
def isVisible (s : String) : Prop := ∃ c ∈ s.toList, isSpace c = false

theorem dropWhile_append_of_visible {cs : List Char} (more : List Char)
    (h : ∃ c ∈ cs, isSpace c = false) :
    (cs ++ more).dropWhile isSpace = cs.dropWhile isSpace ++ more := by
  induction cs with
  | nil =>
    obtain ⟨c, hc, -⟩ := h
    cases hc
  | cons c cs ih =>
    cases hspace : isSpace c with
    | false => simp [hspace]
    | true =>
      obtain ⟨d, hd, hvisible⟩ := h
      have hrest : ∃ c ∈ cs, isSpace c = false := by
        rcases List.mem_cons.mp hd with rfl | hd
        · rw [hspace] at hvisible
          cases hvisible
        · exact ⟨d, hd, hvisible⟩
      simpa [hspace] using ih hrest

theorem dropWhile_append_cons {f : Char → Bool} {c : Char} (hc : f c = false) (cs more : List Char) :
    (cs ++ c :: more).dropWhile f = cs.dropWhile f ++ c :: more := by
  rw [List.dropWhile_append]
  split
  · rename_i hnone
    rw [List.isEmpty_iff.mp hnone, List.dropWhile_cons_of_neg (by simp [hc])]
    rfl
  · rfl

theorem trimLeading_append {s : String} (more : String) (h : isVisible s) :
    trimLeading (s ++ more) = trimLeading s ++ more := by
  rw [← String.toList_inj]
  simp [trimLeading, dropWhile_append_of_visible _ h]

theorem trimLeading_pad (n : Nat) (s : String) : trimLeading (pad n ++ s) = trimLeading s := by
  have hpad : (List.replicate n ' ' ++ s.toList).dropWhile isSpace = s.toList.dropWhile isSpace := by
    induction n with
    | zero => rfl
    | succ n ih => rw [List.replicate_succ, List.cons_append, List.dropWhile_cons_of_pos rfl, ih]
  rw [← String.toList_inj]
  simpa [trimLeading, pad] using hpad

theorem isVisible_append {s t : String} (h : isVisible s ∨ isVisible t) : isVisible (s ++ t) := by
  rcases h with ⟨c, hc, hspace⟩ | ⟨c, hc, hspace⟩
  · exact ⟨c, by simp [hc], hspace⟩
  · exact ⟨c, by simp [hc], hspace⟩

theorem tailText_visible (v : Value) : isVisible (tailText v) := by
  have hcolon : ∀ s, isVisible (":" ++ s) := fun s =>
    isVisible_append (.inl ⟨':', by simp, by decide⟩)
  unfold tailText
  split
  · exact hcolon " {}"
  · exact hcolon " []"
  · exact hcolon ""
  · exact hcolon ""
  · rename_i v _ _ _ _
    rw [show ": " = ":" ++ " " from rfl, String.append_assoc]
    exact hcolon _

theorem rows_visible {r : Row} (hv : isCollection v = true) (h : rows n v = r :: rs) :
    isVisible r.2 := by
  cases v with
  | list vs =>
    cases vs with
    | nil =>
      rw [rows] at h
      obtain ⟨rfl, -⟩ := List.cons.inj h
      exact ⟨'[', by simp, by decide⟩
    | cons v vs =>
      rw [rows, itemRows_eq, List.flatMap_cons] at h
      have hdash : ∀ s, isVisible ("- " ++ s) := fun s =>
        isVisible_append (.inl ⟨'-', by simp, by decide⟩)
      unfold itemBlock at h
      split at h
      · cases hrows : rows (n + 2) v with
        | nil =>
          rw [hrows] at h
          obtain ⟨rfl, -⟩ := List.cons.inj h
          exact hdash ""
        | cons r' rs' =>
          rw [hrows] at h
          obtain ⟨rfl, -⟩ := List.cons.inj h
          exact hdash _
      · obtain ⟨rfl, -⟩ := List.cons.inj h
        exact hdash _
  | map es =>
    cases es with
    | nil =>
      rw [rows, entryRows] at h
      cases h
    | cons e es =>
      rw [rows, entryRows_eq, List.flatMap_cons, entryBlock, List.cons_append] at h
      obtain ⟨rfl, -⟩ := List.cons.inj h
      exact isVisible_append (.inr (tailText_visible _))
  | _ => cases hv

theorem text_dashed {m : Nat} (hv : isCollection v = true) :
    text (dashed n (rows m v)) = pad n ++ "- " ++ trimLeading (text (rows m v)) := by
  cases hrows : rows m v with
  | nil => simp [dashed, text, render, trimLeading]
  | cons r rs =>
    have hvisible := rows_visible hv hrows
    have htrim : trimLeading (render r) = trimLeading r.2 := trimLeading_pad _ _
    have hrender : isVisible (render r) := isVisible_append (.inr hvisible)
    cases rs with
    | nil => simp [dashed, text_singleton, render, trimLeading_pad, String.append_assoc]
    | cons r' rs =>
      have hassoc : render r ++ "\n" ++ text (r' :: rs) = render r ++ ("\n" ++ text (r' :: rs)) :=
        String.append_assoc
      rw [dashed, text_cons (List.cons_ne_nil _ _), text_cons (List.cons_ne_nil _ _), hassoc,
        trimLeading_append _ hrender, htrim]
      simp [render, String.append_assoc]

/-! ## What is emitted -/

theorem entryText_rows {e : Value × Value} (hkey : isCollection e.1 = false) :
    entryText n e.1 e.2 (.ok (text (rows (n + 2) e.2))) = .ok (text (entryBlock n e)) := by
  obtain ⟨k, v⟩ := e
  have hk := encodeScalar_text hkey
  have hblock : isBlock v = true → text (entryBlock n (k, v)) =
      pad n ++ scalarText k ++ ":\n" ++ text (rows (n + 2) v) := by
    intro hv
    have htail : tailText v = ":" := by
      cases v with
      | list vs => cases vs with | nil => cases hv | cons => rfl
      | map es => cases es with | nil => cases hv | cons => rfl
      | _ => cases hv
    rw [entryBlock, if_pos hv, text_cons (rows_ne _ hv), htail, render]
    simp [String.append_assoc, show ":\n" = ":" ++ "\n" from rfl]
  have hline : isBlock v = false → text (entryBlock n (k, v)) =
      pad n ++ scalarText k ++ tailText v := by
    intro hv
    rw [entryBlock, if_neg (by simp [hv]), text_singleton, render]
    simp [String.append_assoc]
  unfold entryText
  rw [hk]
  cases v with
  | list vs =>
    cases vs with
    | nil => rw [hline rfl]; rfl
    | cons v vs => rw [hblock rfl]; rfl
  | map es =>
    cases es with
    | nil => rw [hline rfl]; rfl
    | cons e es => rw [hblock rfl]; rfl
  | _ =>
    rw [hline rfl, tailText_scalar rfl]
    simp [encodeScalar, scalarText, String.append_assoc, pure, Except.pure, bind, Except.bind]

theorem itemText_rows (n : Nat) (v : Value) :
    itemText n v (.ok (text (rows (n + 2) v))) = .ok (text (itemBlock n v)) := by
  cases hv : isCollection v with
  | true =>
    rw [itemBlock, if_pos hv, text_dashed hv]
    cases v with
    | list vs => rfl
    | map es => rfl
    | _ => cases hv
  | false =>
    have hitem : itemText n v (.ok (text (rows (n + 2) v))) =
        (encodeScalar v).map fun s => pad n ++ "- " ++ s := by
      cases v with
      | list vs => cases hv
      | map es => cases hv
      | _ => rfl
    rw [hitem, encodeScalar_text hv, itemBlock, if_neg (by simp [hv]), text_singleton, render,
      ← String.append_assoc]
    rfl

theorem sortLines_sorted {es : Entries} (f : Value × Value → Except EncodeError String)
    (name : Value × Value → String) (hname : ∀ e ∈ es, e.1 = .str (name e))
    (hsorted : es.Pairwise Before) :
    sortLines (es.map fun e => (name e, f e)) = es.map fun e => (name e, f e) := by
  refine List.Pairwise.insertionSort_eq ?_
  rw [List.pairwise_map]
  refine List.Pairwise.imp_of_mem ?_ hsorted
  intro e e' he he' hbefore
  obtain ⟨s, t, hs, ht, hlt⟩ := hbefore
  rw [hname e he] at hs
  rw [hname e' he'] at ht
  cases hs
  cases ht
  exact String.lt_asymm hlt

theorem mapM_ok {α β : Type} (f : α → β) (as : List α) :
    (as.map fun a => (Except.ok (f a) : Except EncodeError β)).mapM id = .ok (as.map f) := by
  induction as with
  | nil => rfl
  | cons a as ih =>
    rw [List.map_cons, List.mapM_cons, ih]
    rfl

theorem emitEntries_rows {es : Entries} {name : Value × Value → String}
    (hname : ∀ e ∈ es, e.1 = .str (name e))
    (hemit : ∀ e ∈ es, emit (n + 2) e.2 = .ok (text (rows (n + 2) e.2))) :
    emitEntries n es = .ok (es.map fun e => (name e, .ok (text (entryBlock n e)))) := by
  induction es with
  | nil => rw [emitEntries]; rfl
  | cons e es ih =>
    obtain ⟨k, v⟩ := e
    have hk : k = .str (name (k, v)) := hname _ List.mem_cons_self
    have hentry := @entryText_rows n (k, v) (by rw [hk]; rfl)
    have hrest := ih (fun e he => hname e (List.mem_cons_of_mem _ he)) fun e he =>
      hemit e (List.mem_cons_of_mem _ he)
    have htext : toStr k = some (name (k, v)) := by
      rw [hk]
      exact congrArg _ (congrArg name (by rw [← hk]))
    rw [emitEntries, htext, hemit (k, v) List.mem_cons_self, hentry, hrest]
    rfl

theorem emitItems_rows {vs : List Value}
    (hemit : ∀ v ∈ vs, emit (n + 2) v = .ok (text (rows (n + 2) v))) :
    emitItems n vs = .ok (vs.map fun v => text (itemBlock n v)) := by
  induction vs with
  | nil => rw [emitItems]; rfl
  | cons v vs ih =>
    have hrest := ih fun v hv => hemit v (List.mem_cons_of_mem _ hv)
    rw [emitItems, hemit v List.mem_cons_self, itemText_rows, hrest]
    rfl

theorem emit_scalar (n : Nat) (h : isCollection v = false) : emit n v = .ok (text (rows n v)) := by
  have hemit : emit n v = (encodeScalar v).map fun s => pad n ++ s := by
    cases v with
    | list vs => cases h
    | map es => cases h
    | _ =>
      rw [emit]
      · rfl
      all_goals simp
  rw [hemit, encodeScalar_text h, rows_scalar n h, text_singleton]
  rfl

/-- **What is emitted** are the rows. -/
theorem emit_rows {floatText : String → String} (h : Plain floatText v) (n : Nat) :
    emit n v = .ok (text (rows n v)) := by
  induction h generalizing n with
  | list vs _ ih =>
    cases vs with
    | nil => rw [emit, rows]; rfl
    | cons v vs =>
      rw [emit, emitItems_rows fun v hv => ih v hv (n + 2), rows, itemRows_eq]
      · show Except.ok _ = _
        rw [intercalate_text (itemBlock_ne n)]
      · simp
  | map es hkeys hsorted _ ih =>
    have hname : ∀ e ∈ es, e.1 = .str (toStr e.1).get! := by
      intro e he
      obtain ⟨key, hkey⟩ := hkeys e he
      rw [hkey]
      rfl
    rw [emit, emitEntries_rows hname fun e he => ih e he (n + 2), rows, entryRows_eq]
    have hsort := sortLines_sorted (fun e => .ok (text (entryBlock n e))) _ hname hsorted
    have htexts : (es.map fun e => ((toStr e.1).get!, (.ok (text (entryBlock n e)) :
        Except EncodeError String))).mapM Prod.snd = .ok (es.map fun e => text (entryBlock n e)) := by
      rw [← mapM_ok, List.mapM_map, List.mapM_map]
      rfl
    show (do
      let texts ← (sortLines (es.map fun e => ((toStr e.1).get!, .ok (text (entryBlock n e))))).mapM
        Prod.snd
      return "\n".intercalate texts : Except EncodeError String) = _
    rw [hsort, htexts]
    show Except.ok _ = _
    rw [intercalate_text (entryBlock_ne n)]
  | _ => exact emit_scalar n rfl

/-! ## Lines of rows -/

/-- A row as the reader sees it. -/
def lineRow (r : Row) : Line := ⟨r.1, r.2.toList⟩

/-- The row is one line, and what it shows begins behind its indentation. -/
structure IsRow (r : Row) : Prop where
  line : '\n' ∉ r.2.toList
  head : r.2.toList.dropWhile (· == ' ') = r.2.toList
  visible : r.2.toList.all isBlank = false

theorem toList_render (r : Row) : (render r).toList = List.replicate r.1 ' ' ++ r.2.toList := by
  simp [render, pad]

theorem linesOf_render {r : Row} (h : IsRow r) : linesOf (render r).toList = [lineRow r] := by
  have hline : '\n' ∉ (render r).toList := by
    rw [toList_render, List.mem_append, not_or]
    exact ⟨fun hc => absurd (List.eq_of_mem_replicate hc) (by decide), h.line⟩
  rw [linesOf_line hline, toList_render, lineOf_indent _ h.head h.visible]
  rfl

/-- The lines of rows; a row with a newline in it has more than one. -/
def linesOfRows (rs : List Row) : List Line := rs.flatMap fun r => linesOf (render r).toList

theorem linesOf_text (rs : List Row) : linesOf (text rs).toList = linesOfRows rs := by
  induction rs with
  | nil => rfl
  | cons r rs ih =>
    cases rs with
    | nil => simp [text_singleton, linesOfRows]
    | cons r' rs =>
      have htext : (text (r :: r' :: rs)).toList =
          (render r).toList ++ '\n' :: (text (r' :: rs)).toList := by
        simp [text_cons (List.cons_ne_nil r' rs)]
      rw [htext, linesOf_append, ih]
      rfl

theorem linesOfRows_eq (h : ∀ r ∈ rs, IsRow r) : linesOfRows rs = rs.map lineRow := by
  induction rs with
  | nil => rfl
  | cons r rs ih =>
    rw [linesOfRows, List.flatMap_cons, ← linesOfRows, linesOf_render (h r List.mem_cons_self),
      ih fun r hr => h r (List.mem_cons_of_mem _ hr)]
    rfl

/-! ## Indentation -/

theorem rows_cons (n : Nat) (h : isBlock v = true) : ∃ body rs, rows n v = (n, body) :: rs := by
  cases v with
  | list vs =>
    cases vs with
    | nil => cases h
    | cons v vs =>
      rw [rows, itemRows_eq, List.flatMap_cons]
      unfold itemBlock
      split
      · cases rows (n + 2) v with
        | nil => exact ⟨_, _, rfl⟩
        | cons r rs => exact ⟨_, _, rfl⟩
      · exact ⟨_, _, rfl⟩
  | map es =>
    cases es with
    | nil => cases h
    | cons e es =>
      rw [rows, entryRows_eq]
      exact ⟨_, _, rfl⟩
  | _ => cases h

/-- Below the first row of an item or an entry, the rows are deeper. -/
def Deepens (n : Nat) (rs : List Row) : Prop := ∃ body deeper, rs = (n, body) :: deeper ∧
  ∀ r ∈ deeper, n < r.1

theorem Deepens.indent (h : Deepens n rs) : ∀ r ∈ rs, n ≤ r.1 := by
  obtain ⟨body, deeper, rfl, hdeeper⟩ := h
  intro r hr
  rcases List.mem_cons.mp hr with rfl | hr
  · exact Nat.le_refl _
  · exact Nat.le_of_lt (hdeeper r hr)

theorem deepens_entry {e : Value × Value}
    (h : isBlock e.2 = true → ∀ r ∈ rows (n + 2) e.2, n + 2 ≤ r.1) :
    Deepens n (entryBlock n e) := by
  refine ⟨_, _, rfl, ?_⟩
  intro r hr
  split at hr
  · rename_i hblock
    exact Nat.lt_of_lt_of_le (by omega) (h hblock r hr)
  · cases hr

theorem deepens_item (h : isBlock v = true → ∀ r ∈ rows (n + 2) v, n + 2 ≤ r.1) :
    Deepens n (itemBlock n v) := by
  unfold itemBlock
  split
  · cases hrows : rows (n + 2) v with
    | nil => exact ⟨_, [], rfl, by simp⟩
    | cons r rs =>
      refine ⟨_, rs, rfl, ?_⟩
      intro r' hr'
      cases hblock : isBlock v with
      | true =>
        have hdeep := h hblock r' (by rw [hrows]; exact List.mem_cons_of_mem _ hr')
        omega
      | false =>
        rename_i hv
        have hone : rs = [] := by
          cases v with
          | list vs =>
            cases vs with
            | nil => rw [rows] at hrows; exact (List.cons.inj hrows).2.symm
            | cons => cases hblock
          | map es =>
            cases es with
            | nil => rw [rows, entryRows] at hrows; cases hrows
            | cons => cases hblock
          | _ => cases hv
        rw [hone] at hr'
        cases hr'
  · exact ⟨_, [], rfl, by simp⟩

theorem rows_indent {floatText : String → String} (h : Plain floatText v) (n : Nat)
    (hblock : isBlock v = true) : ∀ r ∈ rows n v, n ≤ r.1 := by
  induction h generalizing n with
  | list vs _ ih =>
    cases vs with
    | nil => cases hblock
    | cons v vs =>
      rw [rows, itemRows_eq]
      intro r hr
      obtain ⟨v', hv', hr⟩ := List.mem_flatMap.mp hr
      exact (deepens_item fun hb => ih v' hv' (n + 2) hb).indent r hr
  | map es _ _ _ ih =>
    rw [rows, entryRows_eq]
    intro r hr
    obtain ⟨e, he, hr⟩ := List.mem_flatMap.mp hr
    exact (deepens_entry fun hb => ih e he (n + 2) hb).indent r hr
  | _ => cases hblock

end Writer
end Yaml
end Esr
