import Esr.PluginConfigSafe

/-! # No other map is read back

What is written of an entry tells no more than the entry cannot do without, and as much only if it
is safe (`tells_row`).  So where the map is read back no line told less, and every entry is safe.
An empty map below a key is the exception: its braces stand at the beginning of a line, where
no entry is found (`not_read_of_hasEmpty`).
-/
namespace Esr
namespace PluginConfig
open Yaml Yaml.Reader
open Yaml.Writer (toStr charsToString quoted escapeQuotes pad esc esc_line IsScalar Conforms fragment)

variable {enum : Enumeration} {P : Profile}

/-! ## Empty maps -/

/-- There is an empty map in the value. -/
inductive HasEmpty : Value → Prop
  | empty : HasEmpty (.map [])
  | inside {es : Entries} {k v : Value} (he : (k, v) ∈ es) (h : HasEmpty v) : HasEmpty (.map es)

/-- The line of an empty map. -/
def braces : Line := ⟨0, ['\x7b', '\x7d']⟩

theorem row_of_mem {indent : Nat} {es : Entries} {text : String} {e : Value × Value}
    (htext : yamlEncode enum indent es = some text) (he : e ∈ es) :
    ∃ row, IsRow enum indent e row ∧ ∀ l ∈ linesOf row.2.toList, l ∈ linesOf text.toList := by
  obtain ⟨rows, hrows, rfl⟩ := Option.map_eq_some_iff.mp htext
  rw [entryTexts_iff] at hrows
  obtain ⟨row, hrow, hmem⟩ : ∃ row, IsRow enum indent e row ∧ row ∈ rows := by
    clear htext
    induction hrows with
    | nil => cases he
    | cons h _ ih =>
      rcases List.mem_cons.mp he with rfl | he
      · exact ⟨_, h, List.mem_cons_self⟩
      · obtain ⟨row, hrow, hmem⟩ := ih he
        exact ⟨row, hrow, List.mem_cons_of_mem _ hmem⟩
  refine ⟨row, hrow, fun l hl => ?_⟩
  rw [linesOf_joined (List.ne_nil_of_mem hmem), List.mem_flatMap]
  exact ⟨row, (enum.perm rows).mem_iff.mpr hmem, hl⟩

theorem map_of_hasEmpty {v : Value} (h : HasEmpty v) : ∃ es, v = .map es := by
  cases h with
  | empty => exact ⟨_, rfl⟩
  | inside => exact ⟨_, rfl⟩

theorem below_map {indent : Nat} {k : Value} {es : Entries} {row : Value × String}
    (h : IsRow enum indent (k, .map es) row) : ∃ text, yamlEncode enum (indent + 1) es = some text ∧
      below enum indent (.map es) = linesOf text.toList := by
  obtain ⟨-, hentry⟩ := h
  obtain ⟨key, -, hrest⟩ := Option.bind_eq_some_iff.mp hentry
  obtain ⟨text, htext, -⟩ := Option.bind_eq_some_iff.mp hrest
  have hencoded : yamlEncode enum (indent + 1) es = some text := htext
  exact ⟨text, hencoded, by rw [below, belowText, hencoded]; rfl⟩

/-- **An empty map** puts its braces at the beginning of a line, however deep it is. -/
theorem braces_mem {v : Value} (h : HasEmpty v) : ∀ es, v = .map es → ∀ indent text,
    yamlEncode enum indent es = some text → braces ∈ linesOf text.toList := by
  induction h with
  | empty =>
    intro es heq indent text htext
    cases heq
    rw [yamlEncode, entryTexts] at htext
    cases htext
    have hlines : linesOf "\x7b\x7d\n".toList = [braces] := by decide
    exact hlines ▸ List.mem_singleton_self braces
  | @inside es k v he h ih =>
    intro es' heq indent text htext
    cases heq
    obtain ⟨row, hrow, hlines⟩ := row_of_mem htext he
    obtain ⟨inner, rfl⟩ := map_of_hasEmpty h
    obtain ⟨text', htext', hbelow⟩ := below_map hrow
    obtain ⟨key, tail, -, -, hrowLines⟩ := linesOf_row hrow
    apply hlines
    rw [hrowLines, hbelow]
    exact List.mem_append_right _ (ih inner rfl (indent + 1) text' htext')

/-- **Braces at the beginning of a line** are no entry of a map. -/
theorem not_read_of_braces {fuel : Nat} {ls : List Line} {es : Entries} (hne : es ≠ [])
    (hbraces : braces ∈ ls) : node P fuel ls ≠ some (.map es) := by
  intro hread
  obtain ⟨fuel', l, ls', gs, rs, -, hgroups, hrs, -⟩ := node_map hne hread
  rw [lines_of_groups hgroups, List.nil_append, ungroup, List.mem_flatMap] at hbraces
  obtain ⟨g, hg, hmem⟩ := hbraces
  rcases List.mem_cons.mp hmem with hhead | hdeeper
  · obtain ⟨e, -, hentry⟩ := entry_of_group hrs hg
    obtain ⟨key, rest, hcut, -⟩ := hentry.key
    rw [← hhead] at hcut
    cases hcut
  · have hindent := (groups_place hgroups g hg).deeper _ hdeeper
    exact absurd hindent (Nat.not_lt_zero _)

/-! ## What the lines tell -/

/-- The lines tell no more than `w`, and so much only if `K` holds. -/
def Within (P : Profile) (ls : List Line) (w : Nat) (K : Prop) : Prop :=
  ∀ m, TellsAll P ls m → m ≤ w ∧ (m = w → K)

theorem within_nil : Within P [] 0 True := by
  intro m h
  cases h
  exact ⟨Nat.le_refl 0, fun _ => trivial⟩

theorem within_append {ls ls' : List Line} {w w' : Nat} {K K' : Prop} (h : Within P ls w K)
    (h' : Within P ls' w' K') : Within P (ls ++ ls') (w + w') (K ∧ K') := by
  intro m hm
  obtain ⟨a, b, ha, hb, rfl⟩ := tellsAll_append.mp hm
  obtain ⟨hle, heq⟩ := h a ha
  obtain ⟨hle', heq'⟩ := h' b hb
  exact ⟨Nat.add_le_add hle hle', fun hsame => ⟨heq (by omega), heq' (by omega)⟩⟩

theorem Within.imp {ls : List Line} {w : Nat} {K K' : Prop} (h : Within P ls w K) (hK : K → K') :
    Within P ls w K' :=
  fun m hm => ⟨(h m hm).1, fun hsame => hK ((h m hm).2 hsame)⟩

section
variable (hquote : P.plain '"' = false) {n : Nat} {k : Value} {key : String}
  (hkey : toStr k = some key)

include hquote hkey in
/-- **The line of a key**: the key weighs what is written of it, if it is a text. -/
theorem within_key {tail : List Char} {w : Nat} {K : Prop} (htail : Tail P tail w K) :
    Within P (linesOf (List.replicate n ' ' ++ (key.toList ++ ':' :: tail))) (keyBulk k + w)
      (isKey k = true ∧ K) := by
  intro m hm
  obtain ⟨hle, heq⟩ := tellsAll_key hquote htail hm
  obtain ⟨hkeyLe, hkeyEq⟩ := length_toStr hkey
  rw [String.length_toList] at hle heq
  refine ⟨by omega, fun hsame => ?_⟩
  obtain ⟨hbare, hK⟩ := heq (by omega)
  rw [String.ofList_toList] at hbare
  rw [hkeyEq (by omega)]
  exact ⟨hbare, hK⟩

theorem tail_map : Tail P [] 0 True :=
  ⟨.inl (by decide), by decide, rfl, fun _ _ => trivial, fun v hv => by cases hv⟩

theorem tail_null : Tail P [' '] 0 True :=
  ⟨.inl (by decide), by decide, rfl, fun _ _ => trivial, fun v hv => by cases hv⟩

theorem tail_scalar {t : List Char} {v : Value} (h : IsScalar P t v) (hnone : '"' ∉ t) :
    Tail P (' ' :: t) (bulk v) True := by
  refine ⟨.inl (by simpa using hnone), by simp [h.line], rfl, fun _ _ => trivial, fun v' hv => ?_⟩
  rw [(flow_behind h).2] at hv
  cases hv
  exact ⟨Nat.le_refl _, fun _ => trivial⟩

/-- **A text between quotes** is read as no more than it is, and as much if nothing is escaped. -/
theorem tail_str {s : String} (hline : '\n' ∉ s.toList) :
    Tail P (' ' :: '"' :: (esc s.toList ++ ['"'])) (bulk (.str s)) (isUnescaped s = true) := by
  have hstrip : strip (' ' :: '"' :: (esc s.toList ++ ['"'])) = '"' :: (esc s.toList ++ ['"']) :=
    Writer.strip_quoted _
  refine ⟨.inr ⟨s.toList, rfl⟩, by simp [esc_line hline], rfl, fun hnone => ?_, fun v hv => ?_⟩
  · rw [hstrip] at hnone
    cases hnone
  · rw [flow, hstrip, if_neg (by simp), if_neg (by simp), scalar] at hv
    split at hv
    · rename_i r hrest
      cases hv
      rw [bulk, bulk, String.length_ofList, ← String.length_toList]
      rcases Writer.quotedRest_written Writer.follows_nil hrest with ⟨-, hle, heq⟩ | ⟨u, t, hafter, -⟩
      · refine ⟨hle, fun hsame => ?_⟩
        rw [isUnescaped, List.all_eq_true]
        exact fun c hc => by simpa using (heq hsame).2 c hc
      · simp at hafter
    · cases hv

include hquote in
theorem not_mem_quote {t : List Char} {v : Value} (h : IsScalar P t v) (hstr : ∀ s, v ≠ .str s) :
    '"' ∉ t := by
  refine Writer.plain_quote hquote ?_ h.scalar
  rintro rest rfl
  have hscalar := h.scalar
  rw [scalar] at hscalar
  split at hscalar
  · cases hscalar
    exact hstr _ rfl
  · cases hscalar

include hquote in
theorem within_newline {s : String} {w : Nat} {K : Prop} (x : List Char) (hnewline : '\n' ∈ s.toList) :
    Within P (linesOf (x ++ ':' :: ' ' :: '"' :: (esc s.toList ++ ['"']))) w K := by
  intro m hm
  obtain ⟨m', hsays⟩ := saysAll_of_tellsAll hm
  have htext : x ++ ':' :: ' ' :: '"' :: (esc s.toList ++ ['"']) =
      (x ++ [':', ' ']) ++ '"' :: (esc s.toList ++ '"' :: []) := by simp
  rw [htext] at hsays
  exact absurd hsays (Writer.not_says_newline hquote Writer.follows_nil hnewline (by simp))

variable (hplain : ∀ c, c ≠ '"' → P.plain c = true)

include hquote hkey hplain in
/-- **The line of an entry** whose value is no map. -/
theorem within_line {v : Value} {tail : List Char} (hterm : IsTerm P.floatText v)
    (hmap : ∀ es, v ≠ .map es) (htail : behind v = some tail) :
    Within P (linesOf (List.replicate n ' ' ++ (key.toList ++ ':' :: tail))) (keyBulk k + bulk v)
      (isKey k = true ∧ SafeValue v) := by
  have hword : SafeValue v → v ≠ .null → (∀ s, v ≠ .str s) →
      Within P (linesOf (List.replicate n ' ' ++ (key.toList ++ ':' :: tail))) (keyBulk k + bulk v)
        (isKey k = true ∧ SafeValue v) := by
    intro hsafe hnull hstr
    obtain ⟨t, ht, hscalar⟩ := isScalar_value hplain hterm hsafe hmap hnull
    obtain rfl := Option.some.inj (htail.symm.trans ht)
    have hnone := not_mem_quote hquote hscalar hstr
    exact (within_key hquote hkey (tail_scalar hscalar hnone)).imp fun h => ⟨h.1, hsafe⟩
  cases hterm with
  | null =>
    cases htail
    exact (within_key hquote hkey tail_null).imp fun h => ⟨h.1, .null⟩
  | bool b => exact hword (.bool b) (by simp) (by simp)
  | int i => exact hword (.int i) (by simp) (by simp)
  | float t => exact hword (.float t) (by simp) (by simp)
  | str s =>
    cases htail
    by_cases hnewline : '\n' ∈ s.toList
    · rw [← List.append_assoc]
      exact within_newline hquote _ hnewline
    · exact (within_key hquote hkey (tail_str hnewline)).imp fun h => ⟨h.1, .str s h.2⟩
  | list vs =>
    -- the text of a list is shorter than the list weighs
    obtain ⟨t, ht, rfl⟩ := text_of_behind htail (by simp) (by simp)
    have hlist := length_charsToString ht
    obtain ⟨hkeyLe, -⟩ := length_toStr hkey
    intro m hm
    have hle := tellsAll_colon hm
    rw [String.length_toList, String.length_toList] at hle
    rw [bulk]
    exact ⟨by omega, by omega⟩
  | map es => exact absurd rfl (hmap es)

end

section
variable (hquote : P.plain '"' = false) (hplain : ∀ c, c ≠ '"' → P.plain c = true)

theorem within_rows {indent : Nat} {es : Entries} {rows : List (Value × String)}
    (h : List.Forall₂ (IsRow enum indent) es rows)
    (hes : ∀ e ∈ es, ∀ row, IsRow enum indent e row → Within P (linesOf row.2.toList)
      (keyBulk e.1 + bulk e.2) (isKey e.1 = true ∧ SafeValue e.2)) :
    Within P (rows.flatMap fun row => linesOf row.2.toList) (bulkEntries es)
      (∀ e ∈ es, isKey e.1 = true ∧ SafeValue e.2) := by
  induction h with
  | nil => exact within_nil.imp fun _ => by simp
  | @cons e row es rows hrow _ ih =>
    have hrest := ih fun e he => hes e (List.mem_cons_of_mem _ he)
    rw [List.flatMap_cons, bulkEntries_cons]
    exact (within_append (hes e List.mem_cons_self row hrow) hrest).imp fun h =>
      List.forall_mem_cons.mpr h

/-- **The lines of a map** tell no more than its entries. -/
theorem within_map {indent : Nat} {es : Entries} {text : String} (hne : es ≠ [])
    (htext : yamlEncode enum indent es = some text)
    (hes : ∀ e ∈ es, ∀ row, IsRow enum indent e row → Within P (linesOf row.2.toList)
      (keyBulk e.1 + bulk e.2) (isKey e.1 = true ∧ SafeValue e.2)) :
    Within P (linesOf text.toList) (bulkEntries es) (∀ e ∈ es, isKey e.1 = true ∧ SafeValue e.2) := by
  obtain ⟨rows, hrows, rfl⟩ := Option.map_eq_some_iff.mp htext
  rw [entryTexts_iff] at hrows
  have hrowsNe : rows ≠ [] := by
    rintro rfl
    cases hrows
    exact hne rfl
  obtain ⟨es', hperm, hordered⟩ := rows_ordered hrows
  rw [linesOf_joined hrowsNe, ← bulkEntries_perm hperm]
  refine (within_rows hordered fun e he => hes e (hperm.mem_iff.mp he)).imp fun h e he => ?_
  exact h e (hperm.mem_iff.mpr he)

include hquote hplain in
theorem within_oneLine {indent : Nat} {k v : Value} {row : Value × String}
    (hterm : IsTerm P.floatText v) (hmap : ∀ es, v ≠ .map es) (hrow : IsRow enum indent (k, v) row) :
    Within P (linesOf row.2.toList) (keyBulk k + bulk v) (isKey k = true ∧ SafeValue v) := by
  obtain ⟨key, tail, hkey, htail, hlines⟩ := linesOf_row hrow
  have hbelow : below enum indent v = [] := by
    cases v <;> first | rfl | exact absurd rfl (hmap _)
  rw [hlines, hbelow, List.append_nil]
  exact within_line hquote hkey hplain hterm hmap htail

include hquote hplain in
/-- **The lines of an entry** tell no more than the entry, and as much only if it is safe. -/
theorem within_row {v : Value} (hterm : IsTerm P.floatText v) (hfull : ¬HasEmpty v) :
    ∀ indent k row, IsRow enum indent (k, v) row → Within P (linesOf row.2.toList)
      (keyBulk k + bulk v) (isKey k = true ∧ SafeValue v) := by
  induction hterm with
  | map es horder hkeys hterms ihk ih =>
    intro indent k row hrow
    obtain ⟨text, htext, hbelow⟩ := below_map hrow
    obtain ⟨key, tail, hkey, htail, hlines⟩ := linesOf_row hrow
    cases htail
    have hne : es ≠ [] := by
      rintro rfl
      exact hfull .empty
    have hmap := within_map hne htext fun e he row hrow =>
      ih e he (fun h => hfull (.inside he h)) (indent + 1) e.1 row hrow
    rw [hlines, hbelow]
    refine (within_append (within_key hquote hkey tail_map) hmap).imp fun h => ⟨h.1.1, ?_⟩
    exact .map es hne (fun e he => (h.2 e he).1) fun e he => (h.2 e he).2
  | null => exact fun _ _ _ hrow => within_oneLine hquote hplain .null nofun hrow
  | bool b => exact fun _ _ _ hrow => within_oneLine hquote hplain (.bool b) nofun hrow
  | int i => exact fun _ _ _ hrow => within_oneLine hquote hplain (.int i) nofun hrow
  | float t ht hread =>
    exact fun _ _ _ hrow => within_oneLine hquote hplain (.float t ht hread) nofun hrow
  | str s => exact fun _ _ _ hrow => within_oneLine hquote hplain (.str s) nofun hrow
  | list vs h => exact fun _ _ _ hrow => within_oneLine hquote hplain (.list vs h) nofun hrow

include hquote hplain in
/-- **A map that is read back is safe.** -/
theorem safe_of_read {es es' : Entries} {text : String} (hterm : IsTerm P.floatText (.map es))
    (htext : yamlEncode enum 0 es = some text) (hread : read P text = some (.map es'))
    (hperm : es'.Perm es) : Safe es := by
  by_cases hne : es = []
  · subst hne
    exact ⟨by simp, by simp, by simp⟩
  have hne' : es' ≠ [] := by
    rintro rfl
    exact hne hperm.symm.eq_nil
  unfold Reader.read at hread
  dsimp only at hread
  split at hread
  · cases hread
  rename_i hmarkers
  cases hterm with
  | map _ horder hkeyTerms hterms =>
    have hfull : ∀ e ∈ es, ¬HasEmpty e.2 := fun e he h =>
      not_read_of_braces hne' (braces_mem (.inside he h) es rfl 0 text htext) hread
    obtain ⟨m, hm, hle⟩ := node_tells hread
    obtain ⟨hmax, heq⟩ := within_map hne htext (fun e he row hrow =>
      within_row hquote hplain (hterms e he) (hfull e he) 0 e.1 row hrow) m hm
    rw [bulk, bulkEntries_perm hperm] at hle
    have hall := heq (by omega)
    refine ⟨fun e he => (hall e he).1, fun e he => ?_, fun e he => (hall e he).2⟩
    obtain ⟨row, hrow, hlines⟩ := row_of_mem htext he
    obtain ⟨hkey, hvalue⟩ := hall e he
    have hstands := @stands_of_safe enum _ hplain _ (hterms e he) hvalue
    obtain ⟨g, hg, hgroup⟩ := (group_of_safe hplain hkey (hterms e he) hvalue
      fun inner hinner => hstands inner hinner 1).2 row hrow
    rw [← isMarker_group hgroup]
    rw [Bool.not_eq_true, List.any_eq_false] at hmarkers
    simpa using hmarkers g.1 (hlines g.1 (by rw [hg]; exact List.mem_cons_self))

end

/-! ## Changes -/

variable {read : String → Option Value} {floatText : String → String} {l : Layer} {change : Change}
  {file : Option String} {es : Entries}

theorem fragment_quote (floatText : String → String) : (fragment floatText).plain '"' = false := rfl

theorem fragment_plain (floatText : String → String) (c : Char) (hc : c ≠ '"') :
    (fragment floatText).plain c = true := by
  simpa [fragment] using hc

theorem readLayer_some {text : String} (h : readLayer read (some text) = .ok es) :
    es = [] ∨ read text = some (.map es) := by
  rw [readLayer] at h
  split at h
  · cases h
    exact .inl rfl
  · split at h
    · rename_i hread
      cases h
      exact .inr hread
    · cases h
      exact .inl rfl
    · cases h
    · cases h

theorem newline_mem {indent : Nat} {text : String} (h : yamlEncode enum indent es = some text) :
    '\n' ∈ text.toList := by
  obtain ⟨rows, -, rfl⟩ := Option.map_eq_some_iff.mp h
  rw [joined]
  split
  · decide
  · simp

/-- **A safe map** is written and read back by every reader. -/
theorem correct_of_safe (hread : Conforms (fragment floatText) read)
    (hfile : readLayer read file = .ok es) (hterm : IsTerm floatText (.map (change.apply es)))
    (hsafe : Safe (change.apply es)) : Correct read enum l change file := by
  obtain ⟨text, hne, htext, hback⟩ :=
    @read_of_safe enum (fragment floatText) (fragment_plain floatText) _ hterm hsafe
  refine correct_of_read hfile htext ?_
  rw [readLayer, if_neg hne, hread text _ hback]

/-- **A correct change** writes a safe map, where the reader goes by the fragment. -/
theorem safe_of_correct (hfile : readLayer read file = .ok es)
    (hterm : IsTerm floatText (.map (change.apply es)))
    (hagree : ∀ text v, yamlEncode enum 0 (change.apply es) = some text → read text = some v →
      Reader.read (fragment floatText) text = some v)
    (h : Correct read enum l change file) : Safe (change.apply es) := by
  obtain ⟨text, es', htext, hread, hsame⟩ := read_of_correct hfile h
  have hdistinct : (change.apply es).Pairwise fun e e' => e.1 ≠ e'.1 := by
    cases hterm with
    | map _ horder => exact distinct_of_precedes horder
  rcases readLayer_some hread with rfl | hread
  · have hperm : [].Perm (change.apply es) := perm_of_lookup .nil hdistinct hsame
    rw [hperm.symm.eq_nil]
    exact ⟨by simp, by simp, by simp⟩
  · have hfragment := hagree text _ htext hread
    have hdistinct' : es'.Pairwise fun e e' => e.1 ≠ e'.1 := by
      have hnode := hfragment
      unfold Reader.read at hnode
      dsimp only at hnode
      split at hnode
      · cases hnode
      · exact node_distinct hnode
    exact safe_of_read (fragment_quote floatText) (fragment_plain floatText) hterm htext hfragment
      (perm_of_lookup hdistinct' hdistinct hsame)

/-- **A change is correct exactly when the changed map is safe**: for all readers and files
together, and for each where what is written is in the fragment. -/
theorem change_correct_iff (enum : Enumeration) {floatText : String → String} (c : Content floatText)
    (l : Layer) (change : Change) :
    ((∀ read file, Conforms (fragment floatText) read → readLayer read file = .ok c.entries →
        Correct read enum l change file) ↔ Safe (change.apply c.entries)) ∧
      ∀ read file, Conforms (fragment floatText) read → readLayer read file = .ok c.entries →
        Legible enum floatText (change.apply c.entries) →
          (Correct read enum l change file ↔ Safe (change.apply c.entries)) := by
  have hterm := isTerm_apply change c.term
  refine ⟨⟨fun hall => ?_, fun hsafe read file hread hfile => ?_⟩, ?_⟩
  · -- a reader that has the content for a text outside the fragment
    let reader : String → Option Value := fun text =>
      if text = "---" then some (.map c.entries) else Reader.read (fragment floatText) text
    have hreader : ∀ {text}, text ≠ "---" → reader text = Reader.read (fragment floatText) text :=
      fun hne => if_neg hne
    have hconforms : Conforms (fragment floatText) reader := by
      intro text v hv
      rw [hreader, hv]
      rintro rfl
      cases hv
    have hfile : readLayer reader (some "---") = .ok c.entries := rfl
    refine safe_of_correct hfile hterm (fun text v htext hv => ?_) (hall reader _ hconforms hfile)
    have hnewline := newline_mem htext
    rwa [hreader] at hv
    rintro rfl
    exact absurd hnewline (by decide)
  · exact correct_of_safe hread hfile hterm hsafe
  · rintro read file hread hfile ⟨text, v, htext, hv⟩
    refine ⟨safe_of_correct hfile hterm fun text' v' htext' hv' => ?_,
      correct_of_safe hread hfile hterm⟩
    obtain rfl : text = text' := Option.some.inj (htext.symm.trans htext')
    rw [hread text v hv] at hv'
    rw [hv, hv']

/-- A proxy that is turned off for a workspace. -/
theorem change_correct_noProxy : Safe [(.str "http_proxy", .str "")] ∧
    ∀ enum read, Conforms (fragment id) read →
      Correct read enum .workspace (.store "http_proxy" (.str "")) none := by
  have hsafe : Safe [(.str "http_proxy", .str "")] := by
    refine ⟨?_, ?_, ?_⟩ <;> rintro e he <;> obtain rfl := List.mem_singleton.mp he
    · decide
    · decide
    · exact .str "" (by decide)
  refine ⟨hsafe, fun enum read hread => ?_⟩
  let c : Content id := ⟨[], .map [] .nil (by simp) (by simp)⟩
  let change : Change := .store "http_proxy" (.str "")
  exact (change_correct_iff enum c .workspace change).1.mpr hsafe read none hread readLayer_none

theorem yamlEncode_single (enum : Enumeration) (key value : String) :
    yamlEncode enum 0 [(.str key, .str value)] =
      some (pad 0 ++ key ++ ":" ++ " " ++ quoted (escapeQuotes value) ++ "\n") := by
  let row : Value × String := (.str key, pad 0 ++ key ++ ":" ++ " " ++ quoted (escapeQuotes value))
  have hrow : entryTexts enum 0 [(.str key, .str value)] = some [row] := by
    rw [entryTexts_cons, entryTexts]
    rfl
  have horder : enum.order [row] = [row] := List.perm_singleton.mp (enum.perm [row])
  rw [yamlEncode, hrow, Option.map_some, joined, if_neg (by simp), horder]
  simp [row]

/-- A path with a backslash before an `n`, where no layer is there: every reader has a newline. -/
theorem not_correct_backslash : (∀ read, Accepted read fun _ => none) ∧
    ∀ enum read, Conforms (fragment id) read →
      ¬Correct read enum .global (.store "path" (.str "C:\\new")) none := by
  refine ⟨fun read m => ⟨[], readLayer_none⟩, fun enum read hread h => ?_⟩
  obtain ⟨text, es', htext, hback, hsame⟩ := read_of_correct readLayer_none h
  have hline : pad 0 ++ "path" ++ ":" ++ " " ++ quoted (escapeQuotes "C:\\new") ++ "\n" =
      "path: \"C:\\new\"\n" := by decide
  have hwritten := yamlEncode_single enum "path" "C:\\new"
  rw [hline] at hwritten
  obtain rfl := Option.some.inj (htext.symm.trans hwritten)
  have hfragment : Reader.read (fragment id) "path: \"C:\\new\"\n" =
      some (.map [(.str "path", .str "C:\new")]) := rfl
  rcases readLayer_some hback with rfl | hback
  · exact absurd (hsame (.str "path")) nofun
  · rw [hread _ _ hfragment] at hback
    cases hback
    exact absurd (hsame (.str "path")) (by decide)

end PluginConfig
end Esr
