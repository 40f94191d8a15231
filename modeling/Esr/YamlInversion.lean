import Esr.YamlReader

/-! # What was read

The rules of the reader the other way: from what a block was read as to the lines and the
entries it was read from.
-/
namespace Esr
namespace Yaml
namespace Reader

variable {P : Profile}

/-! ## Groups -/

variable {i : Nat} {ls deeper : List Line} {gs : List Group} {block : List Line → Option Value}
  {es : Entries}

theorem lines_of_groups (h : groups i ls = some (deeper, gs)) : ls = deeper ++ ungroup gs := by
  induction ls generalizing deeper gs with
  | nil =>
    obtain ⟨rfl, rfl⟩ := Prod.mk.inj (Option.some.inj h)
    rfl
  | cons l ls ih =>
    rw [groups] at h
    obtain ⟨⟨deeper', gs'⟩, hrest, h⟩ := Option.bind_eq_some_iff.mp h
    have hls := ih hrest
    dsimp only at h
    split at h
    · obtain ⟨rfl, rfl⟩ := Prod.mk.inj (Option.some.inj h)
      rw [hls]
      rfl
    · split at h
      · obtain ⟨rfl, rfl⟩ := Prod.mk.inj (Option.some.inj h)
        rw [hls]
        rfl
      · cases h

theorem groups_below (h : groups i ls = some (deeper, gs)) : ∀ l ∈ deeper, i < l.indent := by
  induction ls generalizing deeper gs with
  | nil =>
    obtain ⟨rfl, -⟩ := Prod.mk.inj (Option.some.inj h)
    simp
  | cons l ls ih =>
    rw [groups] at h
    obtain ⟨⟨deeper', gs'⟩, hrest, h⟩ := Option.bind_eq_some_iff.mp h
    dsimp only at h
    split at h
    · obtain ⟨rfl, -⟩ := Prod.mk.inj (Option.some.inj h)
      simp
    · split at h
      · rename_i hlt
        obtain ⟨rfl, -⟩ := Prod.mk.inj (Option.some.inj h)
        exact List.forall_mem_cons.mpr ⟨hlt, ih hrest⟩
      · cases h

/-- **Every group stands at the indentation.** -/
theorem groups_place (h : groups i ls = some (deeper, gs)) : ∀ g ∈ gs, At i g := by
  induction ls generalizing deeper gs with
  | nil =>
    obtain ⟨-, rfl⟩ := Prod.mk.inj (Option.some.inj h)
    simp
  | cons l ls ih =>
    rw [groups] at h
    obtain ⟨⟨deeper', gs'⟩, hrest, h⟩ := Option.bind_eq_some_iff.mp h
    dsimp only at h
    split at h
    · rename_i hl
      obtain ⟨-, rfl⟩ := Prod.mk.inj (Option.some.inj h)
      exact List.forall_mem_cons.mpr ⟨⟨hl, groups_below hrest⟩, ih hrest⟩
    · split at h
      · obtain ⟨-, rfl⟩ := Prod.mk.inj (Option.some.inj h)
        exact ih hrest
      · cases h

theorem groups_at {rest : List Line} {l : Line}
    (h : groups i (ls ++ l :: rest) = some (deeper, gs)) (hl : l.indent = i) :
    ∃ below gs', groups i rest = some (below, gs') ∧ (l, below) ∈ gs := by
  induction ls generalizing deeper gs with
  | nil =>
    rw [List.nil_append, groups] at h
    obtain ⟨⟨below, gs'⟩, hrest, h⟩ := Option.bind_eq_some_iff.mp h
    dsimp only at h
    rw [if_pos hl] at h
    obtain ⟨-, rfl⟩ := Prod.mk.inj (Option.some.inj h)
    exact ⟨below, gs', hrest, List.mem_cons_self⟩
  | cons l' ls ih =>
    rw [List.cons_append, groups] at h
    obtain ⟨⟨deeper', gs'⟩, hrest, h⟩ := Option.bind_eq_some_iff.mp h
    obtain ⟨below, gs'', hbelow, hmem⟩ := ih hrest
    dsimp only at h
    split at h
    · obtain ⟨-, rfl⟩ := Prod.mk.inj (Option.some.inj h)
      exact ⟨below, gs'', hbelow, List.mem_cons_of_mem _ hmem⟩
    · split at h
      · obtain ⟨-, rfl⟩ := Prod.mk.inj (Option.some.inj h)
        exact ⟨below, gs'', hbelow, hmem⟩
      · cases h

theorem below_of_groups {rest below : List Line} {l : Line}
    (h : groups i (ls ++ l :: rest) = some (below, gs)) (hl : l.indent = i) : below <+: ls := by
  have hdeeper := groups_below h
  rcases List.append_eq_append_iff.mp (lines_of_groups h) with ⟨a, ha, hrest⟩ | ⟨a, ha, -⟩
  · cases a with
    | nil => exact ⟨[], by simp [ha]⟩
    | cons l' a =>
      obtain ⟨rfl, -⟩ := List.cons.inj hrest
      exact absurd (hdeeper l (by simp [ha])) (by omega)
  · exact ⟨a, ha.symm⟩

/-! ## Entries -/

/-- The group is read as the entry, by `block` where the value stands below the key. -/
inductive IsRead (P : Profile) (block : List Line → Option Value) (g : Group) (e : Value × Value) : Prop
  | below (key rest : List Char) (hcut : cutKey g.1.text = some (key, rest))
      (hkey : keyOf P key = some e.1) (hblank : strip rest = []) (hread : block g.2 = some e.2)
  | behind (key rest : List Char) (hcut : cutKey g.1.text = some (key, rest))
      (hkey : keyOf P key = some e.1) (hblank : strip rest ≠ []) (hnone : g.2 = [])
      (hflow : flow P rest = some e.2)

/-- **An entry that was read** has a new text for its key. -/
theorem entry_inv {es' : Entries} {g : Group} (h : entry P block es g = some es') :
    ∃ key v, IsRead P block g (.str key, v) ∧
      get key es = none ∧ es' = put key v es := by
  rw [entry] at h
  split at h
  · rename_i cs rest hcut
    split at h
    · rename_i k v hkey hvalue
      unfold insertEntry at h
      split at h
      · rename_i key
        split at h
        · cases h
        · rename_i hget
          cases h
          refine ⟨key, v, ?_, by simpa using hget, rfl⟩
          split at hvalue
          · rename_i hblank
            exact .below cs rest hcut hkey hblank hvalue
          · rename_i hblank
            split at hvalue
            · rename_i hnone
              exact .behind cs rest hcut hkey hblank hnone hvalue
            · cases hvalue
      · cases h
    · cases h
  · cases h

/-- **The entries of a mapping** are those of its groups. -/
theorem entries_inv {es' : Entries} (h : gs.foldlM (entry P block) es = some es') :
    ∃ rs, List.Forall₂ (IsRead P block) gs rs ∧ es'.Perm (es ++ rs) := by
  induction gs generalizing es with
  | nil =>
    cases h
    exact ⟨[], .nil, by simp⟩
  | cons g gs ih =>
    rw [List.foldlM_cons] at h
    obtain ⟨es₁, hes₁, h⟩ := Option.bind_eq_some_iff.mp h
    obtain ⟨key, v, hread, hget, rfl⟩ := entry_inv hes₁
    obtain ⟨rs, hrs, hperm⟩ := ih h
    refine ⟨(.str key, v) :: rs, .cons hread hrs, hperm.trans ?_⟩
    exact ((put_perm hget).append_right rs).trans List.perm_middle.symm

theorem entries_distinct {es' : Entries} (hes : es.Pairwise fun e e' => e.1 ≠ e'.1)
    (h : gs.foldlM (entry P block) es = some es') :
    es'.Pairwise fun e e' => e.1 ≠ e'.1 := by
  induction gs generalizing es with
  | nil =>
    cases h
    exact hes
  | cons g gs ih =>
    rw [List.foldlM_cons] at h
    obtain ⟨es₁, hes₁, h⟩ := Option.bind_eq_some_iff.mp h
    obtain ⟨key, v, -, hget, rfl⟩ := entry_inv hes₁
    refine ih ?_ h
    rw [(put_perm hget).pairwise_iff fun hne => Ne.symm hne]
    exact List.pairwise_cons.mpr ⟨fun e he => Ne.symm (get_eq_none.mp hget e he), hes⟩

theorem IsRead.key {g : Group} {e : Value × Value} (h : IsRead P block g e) :
    ∃ key rest, cutKey g.1.text = some (key, rest) ∧ keyOf P key = some e.1 := by
  cases h with
  | below key rest hcut hkey => exact ⟨key, rest, hcut, hkey⟩
  | behind key rest hcut hkey => exact ⟨key, rest, hcut, hkey⟩

theorem group_of_entry {rs : Entries} (h : List.Forall₂ (IsRead P block) gs rs)
    {e : Value × Value} (he : e ∈ rs) :
    ∃ g ∈ gs, IsRead P block g e := by
  induction h with
  | nil => cases he
  | cons hread _ ih =>
    rcases List.mem_cons.mp he with rfl | he
    · exact ⟨_, List.mem_cons_self, hread⟩
    · obtain ⟨g, hg, hread⟩ := ih he
      exact ⟨g, List.mem_cons_of_mem _ hg, hread⟩

theorem entry_of_group {rs : Entries} (h : List.Forall₂ (IsRead P block) gs rs) {g : Group}
    (hg : g ∈ gs) :
    ∃ e ∈ rs, IsRead P block g e := by
  induction h with
  | nil => cases hg
  | cons hread _ ih =>
    rcases List.mem_cons.mp hg with rfl | hg
    · exact ⟨_, List.mem_cons_self, hread⟩
    · obtain ⟨e, he, hread⟩ := ih hg
      exact ⟨e, List.mem_cons_of_mem _ he, hread⟩

/-! ## Nodes -/

theorem resolve_map (s : String) (es : Entries) : resolve P s ≠ .map es := by
  unfold resolve
  repeat' split
  all_goals nofun

theorem flow_map {cs : List Char} (h : flow P cs = some (.map es)) : es = [] := by
  unfold flow at h
  split at h
  · cases h
    rfl
  · split at h
    · cases h
    · unfold scalar at h
      split at h
      · split at h
        · cases h
        · cases h
      · split at h
        · exact absurd (Option.some.inj h) (resolve_map _ es)
        · cases h

/-- What lines were read as, and how: nothing, a sequence, a mapping or one scalar. -/
inductive NodeRead (P : Profile) (block : List Line → Option Value) : List Line → Value → Prop
  | nil : NodeRead P block [] .null
  | sequence (l : Line) (ls : List Line) (gs : List Group) (vs : List Value)
      (hgroups : groups l.indent (l :: ls) = some ([], gs))
      (hread : gs.mapM (item block) = some vs) : NodeRead P block (l :: ls) (.list vs)
  | mapping (l : Line) (ls : List Line) (gs : List Group) (es : Entries)
      (hgroups : groups l.indent (l :: ls) = some ([], gs))
      (hread : gs.foldlM (entry P block) [] = some es) : NodeRead P block (l :: ls) (.map es)
  | scalar (l : Line) (v : Value) (hdash : isDash l.text = false) (hcut : cutKey l.text = none)
      (hflow : flow P l.text = some v) : NodeRead P block [l] v

/-- **A node that was read** was read in one of these ways, its blocks with less fuel. -/
theorem node_inv {fuel : Nat} {ls : List Line} {v : Value} (h : node P fuel ls = some v) :
    NodeRead P (node P (fuel - 1)) ls v := by
  cases ls with
  | nil =>
    obtain rfl : v = .null := by cases fuel <;> cases h <;> rfl
    exact .nil
  | cons l ls =>
    cases fuel with
    | zero => cases h
    | succ fuel =>
      rw [node] at h
      split at h
      · split at h
        · rename_i gs hgroups
          obtain ⟨vs, hvs, rfl⟩ := Option.map_eq_some_iff.mp h
          exact .sequence l ls gs vs hgroups hvs
        · cases h
      · rename_i hdash
        split at h
        · split at h
          · rename_i gs hgroups
            obtain ⟨es, hes, rfl⟩ := Option.map_eq_some_iff.mp h
            exact .mapping l ls gs es hgroups hes
          · cases h
        · rename_i hcut
          split at h
          · rename_i hnone
            rw [hnone]
            exact .scalar l v (by simpa using hdash) (by simpa using hcut) h
          · cases h

theorem groups_ne_nil {i : Nat} {l : Line} {ls : List Line} {gs : List Group}
    (h : groups i (l :: ls) = some ([], gs)) : gs ≠ [] := by
  rintro rfl
  cases lines_of_groups h

/-- **A mapping that was read** has groups for its entries. -/
theorem node_map {fuel : Nat} {ls : List Line} {es : Entries} (hne : es ≠ [])
    (h : node P fuel ls = some (.map es)) :
    ∃ fuel' l ls' gs rs, ls = l :: ls' ∧ groups l.indent ls = some ([], gs) ∧
      List.Forall₂ (IsRead P (node P fuel')) gs rs ∧ es.Perm rs := by
  cases node_inv h with
  | mapping l ls gs es hgroups hread =>
    obtain ⟨rs, hrs, hperm⟩ := entries_inv hread
    exact ⟨_, l, ls, gs, rs, rfl, hgroups, hrs, hperm⟩
  | scalar l v hdash hcut hflow => exact absurd (flow_map hflow) hne

theorem node_distinct {fuel : Nat} {ls : List Line} {es : Entries}
    (h : node P fuel ls = some (.map es)) : es.Pairwise fun e e' => e.1 ≠ e'.1 := by
  cases node_inv h with
  | mapping l ls gs es hgroups hread => exact entries_distinct .nil hread
  | scalar l v hdash hcut hflow =>
    rw [flow_map hflow]
    exact .nil

/-- **A text that was read** stands on a line of its own. -/
theorem node_text {fuel : Nat} {ls : List Line} {s : String} (h : node P fuel ls = some (.str s)) :
    ∃ l, ls = [l] ∧ flow P l.text = some (.str s) := by
  cases node_inv h with
  | scalar l v hdash hcut hflow => exact ⟨l, rfl, hflow⟩

end Reader
end Yaml
end Esr
