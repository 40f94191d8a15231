import Esr.PluginConfig

/-! # Layers

A change is correct when the changed map is read back from what is written of it
(`correct_of_read`), and only when what is read there has the same value for every key
(`read_of_correct`).
-/
namespace Esr
namespace PluginConfig
open Yaml
open Yaml.Reader (Before)

variable {k : Value} {key : String} {m : Entries}

/-! ## Maps -/

theorem lookup_cons (k : Value) (e : Value × Value) (m : Entries) :
    lookup k (e :: m) = if e.1 = k then some e.2 else lookup k m := by
  unfold lookup
  rw [List.find?_cons]
  by_cases he : e.1 = k <;> simp [he]

theorem lookup_append (k : Value) (m m' : Entries) :
    lookup k (m ++ m') = (lookup k m).or (lookup k m') := by
  induction m with
  | nil => rfl
  | cons e m ih =>
    rw [List.cons_append, lookup_cons, lookup_cons, ih]
    split <;> rfl

theorem lookup_filter (k : Value) (m : Entries) (p : Value → Bool) :
    lookup k (m.filter fun e => p e.1) = if p k then lookup k m else none := by
  induction m with
  | nil => simp [lookup]
  | cons e m ih =>
    rw [List.filter_cons, lookup_cons]
    by_cases he : e.1 = k
    · subst he
      split <;> simp_all [lookup_cons]
    · split <;> simp [lookup_cons, he, ih]

theorem lookup_mergeLayer (k : Value) (base overlay : Entries) :
    lookup k (mergeLayer base overlay) = (lookup k overlay).or (lookup k base) := by
  rw [mergeLayer, lookup_append, lookup_filter k base fun k => (lookup k overlay).isNone]
  cases lookup k overlay <;> simp

theorem lookup_put_self (key : String) (v : Value) (m : Entries) :
    lookup (.str key) (put key v m) = some v := by
  induction m with
  | nil => simp [put, lookup]
  | cons e m ih =>
    unfold put
    split
    · simp [lookup_cons]
    · rename_i hne
      split
      · simp [lookup_cons]
      · rw [lookup_cons, if_neg fun he => hne (Value.isStr_iff.mpr he), ih]

theorem lookup_put_of_ne (hk : k ≠ .str key) (v : Value) (m : Entries) :
    lookup k (put key v m) = lookup k m := by
  induction m with
  | nil => simp [put, lookup, Ne.symm hk]
  | cons e m ih =>
    unfold put
    split
    · rename_i he
      rw [lookup_cons, lookup_cons, if_neg (Ne.symm hk), if_neg]
      rw [Value.isStr_iff.mp he]
      exact Ne.symm hk
    · split
      · rw [lookup_cons, if_neg (Ne.symm hk)]
      · rw [lookup_cons, lookup_cons, ih]

theorem lookup_delete (k : Value) (key : String) (m : Entries) :
    lookup k (delete key m) = if k = .str key then none else lookup k m := by
  rw [delete, lookup_filter k m fun k => !k.isStr key]
  by_cases hk : k = .str key
  · simp [hk]
  · have hstr : k.isStr key = false := by
      rw [← Bool.not_eq_true, Value.isStr_iff]
      exact hk
    simp [hk, hstr]

theorem lookup_apply_of_ne {change : Change} (hk : k ≠ .str change.key) (m : Entries) :
    lookup k (change.apply m) = lookup k m := by
  cases change with
  | store key setting => exact lookup_put_of_ne hk _ m
  | delete key => exact (lookup_delete k key m).trans (if_neg hk)

theorem lookup_iff (h : m.Pairwise fun e e' => e.1 ≠ e'.1) {v : Value} :
    lookup k m = some v ↔ (k, v) ∈ m := by
  induction m with
  | nil => simp [lookup]
  | cons e m ih =>
    obtain ⟨hhead, htail⟩ := List.pairwise_cons.mp h
    rw [lookup_cons, List.mem_cons]
    split
    · rename_i he
      subst he
      refine ⟨fun hv => .inl (by rw [← Option.some.inj hv]), ?_⟩
      rintro (he | hmem)
      · rw [← he]
      · exact absurd rfl (hhead (e.1, v) hmem)
    · rename_i he
      rw [ih htail]
      refine ⟨.inr, ?_⟩
      rintro (rfl | hmem)
      · exact absurd rfl he
      · exact hmem

/-- **Maps with the same values** have the same entries. -/
theorem perm_of_lookup {m' : Entries} (h : m.Pairwise fun e e' => e.1 ≠ e'.1)
    (h' : m'.Pairwise fun e e' => e.1 ≠ e'.1) (hsame : ∀ k, lookup k m = lookup k m') :
    m.Perm m' := by
  have hnodup : ∀ {m : Entries}, (m.Pairwise fun e e' => e.1 ≠ e'.1) → m.Nodup := fun h =>
    h.imp fun hne heq => hne (by rw [heq])
  rw [List.perm_ext_iff_of_nodup (hnodup h) (hnodup h')]
  rintro ⟨k, v⟩
  rw [← lookup_iff h, ← lookup_iff h', hsame]

/-! ## Order -/

theorem distinct_of_precedes (h : m.Pairwise Precedes) : m.Pairwise fun e e' => e.1 ≠ e'.1 :=
  h.imp Precedes.distinct

theorem before_of_precedes {e e' : Value × Value} (he : ∃ s, e.1 = .str s)
    (he' : ∃ s, e'.1 = .str s) (h : Precedes e e') : Before e e' := by
  obtain ⟨s, hs⟩ := he
  obtain ⟨t, ht⟩ := he'
  exact ⟨s, t, hs, ht, h.ordered s t hs ht⟩

theorem mem_put {v : Value} {e : Value × Value} (h : e ∈ put key v m) : e = (.str key, v) ∨ e ∈ m := by
  induction m with
  | nil => exact .inl (List.mem_singleton.mp h)
  | cons e' m ih =>
    unfold put at h
    split at h
    · rcases List.mem_cons.mp h with h | h
      · exact .inl h
      · exact .inr (List.mem_cons_of_mem _ h)
    · split at h
      · rcases List.mem_cons.mp h with h | h
        · exact .inl h
        · exact .inr h
      · rcases List.mem_cons.mp h with rfl | h
        · exact .inr List.mem_cons_self
        · exact (ih h).imp_right (List.mem_cons_of_mem _)

theorem isAfter_iff {v : Value} : v.isAfter key = true ↔ ∃ s, v = .str s ∧ key < s := by
  cases v <;> simp [Value.isAfter]

theorem precedes_of_isAfter {e e' : Value × Value} (v : Value) (hafter : e.1.isAfter key = true)
    (h : Precedes e e') : Precedes (.str key, v) e' := by
  obtain ⟨s, hs, hlt⟩ := isAfter_iff.mp hafter
  have hordered : ∀ t, e'.1 = .str t → key < t := fun t ht =>
    String.lt_trans hlt (h.ordered s t hs ht)
  refine ⟨fun heq => String.lt_irrefl _ (hordered key heq.symm), fun k t hk ht => ?_⟩
  cases hk
  exact hordered t ht

theorem precedes_put {e : Value × Value} (v : Value) (hne : ¬e.1.isStr key = true)
    (hafter : ¬e.1.isAfter key = true) : Precedes e (.str key, v) := by
  refine ⟨fun heq => hne (Value.isStr_iff.mpr heq), fun s t hs ht => ?_⟩
  cases ht
  have hle : s ≤ key := String.not_lt.mp fun hlt => hafter (isAfter_iff.mpr ⟨s, hs, hlt⟩)
  rw [← Std.not_le]
  intro hge
  exact hne (Value.isStr_iff.mpr (by rw [hs, String.le_antisymm hle hge]))

theorem put_precedes (v : Value) (h : m.Pairwise Precedes) : (put key v m).Pairwise Precedes := by
  induction m with
  | nil => exact List.pairwise_singleton ..
  | cons e m ih =>
    obtain ⟨hhead, htail⟩ := List.pairwise_cons.mp h
    unfold put
    split
    · rename_i he
      have hkey : e.1 = .str key := Value.isStr_iff.mp he
      refine List.pairwise_cons.mpr ⟨fun e' he' => ?_, htail⟩
      obtain ⟨hdistinct, hordered⟩ := hhead e' he'
      rw [hkey] at hdistinct hordered
      exact ⟨hdistinct, hordered⟩
    · rename_i hne
      split
      · rename_i hafter
        have hself : Precedes (.str key, v) e := by
          obtain ⟨s, hs, hlt⟩ := isAfter_iff.mp hafter
          refine ⟨fun heq => hne (Value.isStr_iff.mpr heq.symm), fun k t hk ht => ?_⟩
          cases hk
          rw [hs] at ht
          cases ht
          exact hlt
        refine List.pairwise_cons.mpr ⟨?_, h⟩
        exact List.forall_mem_cons.mpr
          ⟨hself, fun e' he' => precedes_of_isAfter v hafter (hhead e' he')⟩
      · rename_i hafter
        refine List.pairwise_cons.mpr ⟨fun e' he' => ?_, ih htail⟩
        rcases mem_put he' with rfl | he'
        · exact precedes_put v hne hafter
        · exact hhead e' he'

/-- **A change keeps a term.** -/
theorem isTerm_apply {floatText : String → String} (change : Change)
    (h : IsTerm floatText (.map m)) : IsTerm floatText (.map (change.apply m)) := by
  cases h with
  | map _ horder hkeys h =>
    cases change with
    | store key setting =>
      have hvalue : IsTerm floatText setting.value := by
        cases setting with
        | str s => exact .str s
        | bool b => exact .bool b
        | int n => exact .int n
      refine .map _ (put_precedes _ horder) (fun e he => ?_) fun e he => ?_
      · rcases mem_put he with rfl | he
        · exact .str key
        · exact hkeys e he
      · rcases mem_put he with rfl | he
        · exact hvalue
        · exact h e he
    | delete key =>
      have hmem : ∀ e ∈ delete key m, e ∈ m := fun e he => List.mem_of_mem_filter he
      exact .map _ (horder.filter _) (fun e he => hkeys e (hmem e he)) fun e he => h e (hmem e he)

/-! ## Layers -/

/-- The three contents, one over the other. -/
def merged (contents : Layer → Entries) : Entries :=
  mergeLayer (mergeLayer (contents .global) (contents .user)) (contents .workspace)

theorem lookup_merged (k : Value) (contents : Layer → Entries) :
    lookup k (merged contents) = (lookup k (contents .workspace)).or
      ((lookup k (contents .user)).or (lookup k (contents .global))) := by
  rw [merged, lookup_mergeLayer, lookup_mergeLayer]

theorem lookup_merged_of_above {contents : Layer → Entries} {l : Layer} {v : Value}
    (habove : ∀ m, l.rank < m.rank → lookup k (contents m) = none)
    (h : lookup k (contents l) = some v) : lookup k (merged contents) = some v := by
  rw [lookup_merged]
  cases l with
  | global =>
    rw [habove .workspace (by decide), habove .user (by decide), h]
    rfl
  | user =>
    rw [habove .workspace (by decide), h]
    rfl
  | workspace =>
    rw [h]
    rfl

theorem lookup_merged_of_none {contents contents' : Layer → Entries} {l : Layer}
    (hothers : ∀ m, m ≠ l → contents m = contents' m) (h : lookup k (contents l) = none)
    (h' : lookup k (contents' l) = none) : lookup k (merged contents) = lookup k (merged contents') := by
  rw [lookup_merged, lookup_merged]
  cases l with
  | global => rw [h, h', hothers .workspace nofun, hothers .user nofun]
  | user => rw [h, h', hothers .workspace nofun, hothers .global nofun]
  | workspace => rw [h, h', hothers .user nofun, hothers .global nofun]

variable {read : String → Option Value} {enum : Enumeration} {l : Layer} {change : Change}
  {file : Option String} {es : Entries}

theorem resolve_eq {files : Files} {contents : Layer → Entries}
    (h : ∀ m, readLayer read (files m) = .ok (contents m)) :
    resolve read files = .ok (merged contents) := by
  rw [resolve, h, h, h]
  rfl

theorem readLayer_none : readLayer read none = .ok [] := rfl

theorem updateConfigYaml_eq (updater : Entries → Entries) (hfile : readLayer read file = .ok es) :
    updateConfigYaml read enum file updater = match yamlEncode enum 0 (updater es) with
      | some yamlContent => .ok yamlContent
      | none => .error .notEncoded := by
  rw [updateConfigYaml, hfile]
  rfl

/-- **Where the changed map is read back**, the change is correct. -/
theorem correct_of_read {text : String} (hfile : readLayer read file = .ok es)
    (htext : yamlEncode enum 0 (change.apply es) = some text)
    (hread : readLayer read (some text) = .ok (change.apply es)) :
    Correct read enum l change file := by
  rintro files rfl hfiles
  choose contents hcontents using hfiles
  obtain rfl : contents l = es := by
    have hsame := (hcontents l).symm.trans hfile
    exact Except.ok.inj hsame
  have hrun : change.run read enum l files = .ok (Function.update files l (some text)) := by
    rw [Change.run_eq, updateConfigYaml_eq change.apply hfile, htext]
    rfl
  have hafter : ∀ m, readLayer read (Function.update files l (some text) m) =
      .ok (Function.update contents l (change.apply (contents l)) m) := by
    intro m
    by_cases hm : m = l
    · rw [hm, Function.update_self, Function.update_self, hread]
    · rw [Function.update_of_ne hm, Function.update_of_ne hm, hcontents]
  refine ⟨_, hrun, ?_, ⟨_, _, hfile, (hafter l).trans (by rw [Function.update_self]), ?_⟩, ?_⟩
  · cases change with
    | store key setting =>
      intro habove
      refine ⟨_, resolve_eq hafter, lookup_merged_of_above (l := l) (fun m hm => ?_) ?_⟩
      · rw [Function.update_of_ne (by rintro rfl; exact Nat.lt_irrefl _ hm)]
        exact habove m _ hm (hcontents m)
      · rw [Function.update_self]
        exact lookup_put_self key _ _
    | delete key =>
      have hothers : ∀ m, readLayer read (Function.update files l none m) =
          .ok (Function.update contents l [] m) := by
        intro m
        by_cases hm : m = l
        · rw [hm, Function.update_self, Function.update_self, readLayer_none]
        · rw [Function.update_of_ne hm, Function.update_of_ne hm, hcontents]
      refine ⟨_, _, resolve_eq hafter, resolve_eq hothers, lookup_merged_of_none (l := l) ?_ ?_ ?_⟩
      · intro m hm
        rw [Function.update_of_ne hm, Function.update_of_ne hm]
      · rw [Function.update_self]
        exact (lookup_delete _ key _).trans (if_pos rfl)
      · rw [Function.update_self]
        rfl
  · exact fun k hk => lookup_apply_of_ne hk _
  · intro m hm
    rw [Function.update_of_ne hm]

theorem lookup_merged_single (k : Value) (l : Layer) (m : Entries) :
    lookup k (merged (Function.update (fun _ => []) l m)) = lookup k m := by
  have hnone : lookup k [] = none := rfl
  rw [lookup_merged]
  cases l <;> simp [Function.update, hnone]

/-- **What a correct change writes** is read with the changed map's values. -/
theorem read_of_correct (hfile : readLayer read file = .ok es) (h : Correct read enum l change file) :
    ∃ text es', yamlEncode enum 0 (change.apply es) = some text ∧
      readLayer read (some text) = .ok es' ∧ ∀ k, lookup k es' = lookup k (change.apply es) := by
  -- no other layer is there
  let files : Files := Function.update (fun _ => none) l file
  have hself : files l = file := Function.update_self ..
  have haccepted : Accepted read files := by
    intro m
    by_cases hm : m = l
    · exact ⟨es, by rw [hm, hself, hfile]⟩
    · exact ⟨[], by rw [show files m = none from Function.update_of_ne hm ..]; rfl⟩
  obtain ⟨files', hrun, hresolved, ⟨es₀, es', hes₀, hes', hkept⟩, -⟩ := h files hself haccepted
  rw [hself, hfile] at hes₀
  obtain rfl := Except.ok.inj hes₀
  rw [Change.run_eq, hself, updateConfigYaml_eq change.apply hfile] at hrun
  cases htext : yamlEncode enum 0 (change.apply es) with
  | none =>
    rw [htext] at hrun
    cases hrun
  | some text =>
    rw [htext] at hrun
    obtain rfl : Function.update files l (some text) = files' := Except.ok.inj hrun
    rw [Function.update_self] at hes'
    have hafter : ∀ m, readLayer read (Function.update files l (some text) m) =
        .ok (Function.update (fun _ => []) l es' m) := by
      intro m
      by_cases hm : m = l
      · rw [hm, Function.update_self, Function.update_self, hes']
      · rw [Function.update_of_ne hm, Function.update_of_ne hm,
          show files m = none from Function.update_of_ne hm ..]
        rfl
    have hmerged := resolve_eq hafter
    refine ⟨text, es', rfl, hes', fun k => ?_⟩
    by_cases hk : k = .str change.key
    · subst hk
      rw [← lookup_merged_single _ l es']
      cases change with
      | store key setting =>
        obtain ⟨esAll, hall, hvalue⟩ := hresolved fun m es hm hread => by
          have hother : files m = none :=
            Function.update_of_ne (by rintro rfl; exact Nat.lt_irrefl _ hm) ..
          rw [hother] at hread
          obtain rfl := Except.ok.inj hread
          rfl
        rw [hmerged] at hall
        obtain rfl := Except.ok.inj hall
        exact hvalue.trans (lookup_put_self key _ _).symm
      | delete key =>
        obtain ⟨esAll, others, hall, hothers, hvalue⟩ := hresolved
        have hnone : ∀ m, readLayer read (Function.update files l none m) = .ok [] := by
          intro m
          by_cases hm : m = l
          · rw [hm, Function.update_self, readLayer_none]
          · rw [Function.update_of_ne hm, show files m = none from Function.update_of_ne hm ..]
            rfl
        rw [resolve_eq hnone] at hothers
        rw [hmerged] at hall
        obtain rfl := Except.ok.inj hall
        obtain rfl := Except.ok.inj hothers
        exact hvalue.trans ((lookup_delete _ key _).trans (if_pos rfl)).symm
    · rw [hkept k hk, lookup_apply_of_ne hk]

end PluginConfig
end Esr
