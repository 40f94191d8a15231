import Esr.UriCompat
import Esr.InstanceInvariant
import Mathlib.Data.Set.Basic

/-! # What the store should hold for the agents

The agents' URIs are three families of keys (`Key`), told apart as long as ids,
session ids and names have no slash.  `ideal reg` is the row each key should have,
read off the registry.

During a call of the facade the store agrees with the registry outside a set of
keys that are still to be written (`Pending`).  Every mirror function takes keys
out of that set, and each lemma says which.
-/
namespace Esr
namespace UriCompat
open InstanceRegistry

variable {Config : Type}

/-! ## The keys -/

/-- A URI of the agents' part of the store. -/
inductive Key where
  | canonical (id : String)
  | byName (sid name : String)
  | primaryFor (sid : String)

namespace Key

def uri : Key → String
  | .canonical id => canonicalUri id
  | .byName sid name => byNameUri sid name
  | .primaryFor sid => byPrimaryUri sid

/-- A key that the facade writes for tidy ids and names. -/
def Clean : Key → Prop
  | .canonical id => '/' ∉ id.toList
  | .byName sid name => '/' ∉ sid.toList ∧ '/' ∉ name.toList
  | .primaryFor _ => True

/-- A key that the facade reads: any session and name, and uuids without slash. -/
def Asked : Key → Prop
  | .canonical id => '/' ∉ id.toList
  | _ => True

theorem Clean.asked {k : Key} (h : k.Clean) : k.Asked := by
  cases k with
  | canonical id => exact h
  | _ => trivial

/-- The text after the part all agent URIs share. -/
def path : Key → String
  | .canonical id => id
  | .byName sid name => "by-name/" ++ sid ++ "/" ++ name
  | .primaryFor sid => "by-primary-for/" ++ sid

theorem byName_prefix :
    "esr://localhost/agents/by-name/" = "esr://localhost/agents/" ++ "by-name/" := rfl

theorem byPrimary_prefix :
    "esr://localhost/agents/by-primary-for/" = "esr://localhost/agents/" ++ "by-primary-for/" := rfl

theorem append_regroup (p q s m n : String) : p ++ q ++ s ++ m ++ n = p ++ (q ++ s ++ m ++ n) := by
  simp only [String.append_assoc]

theorem uri_eq (k : Key) : k.uri = "esr://localhost/agents/" ++ k.path := by
  cases k with
  | canonical id => rfl
  | byName sid name =>
    have h := congrArg (fun p => p ++ sid ++ "/" ++ name) byName_prefix
    exact h.trans (append_regroup _ _ _ _ _)
  | primaryFor sid =>
    have h := congrArg (fun p => p ++ sid) byPrimary_prefix
    exact h.trans String.append_assoc

theorem byName_toList (sid name : String) :
    (Key.byName sid name).path.toList =
      'b' :: 'y' :: '-' :: 'n' :: ("ame/".toList ++ (sid.toList ++ '/' :: name.toList)) := by
  have h : ∀ p q m r : String, (p ++ q ++ m ++ r).toList =
      p.toList ++ (q.toList ++ (m.toList ++ r.toList)) := fun p q m r => by
    simp only [String.toList_append, List.append_assoc]
  exact h "by-name/" sid "/" name

theorem primaryFor_toList (sid : String) :
    (Key.primaryFor sid).path.toList =
      'b' :: 'y' :: '-' :: 'p' :: ("rimary-for/".toList ++ sid.toList) :=
  String.toList_append

theorem slash_mem_byName (sid name : String) : '/' ∈ (Key.byName sid name).path.toList := by
  rw [byName_toList]
  simp only [List.mem_cons, List.mem_append, true_or, or_true]

theorem slash_mem_primaryFor (sid : String) : '/' ∈ (Key.primaryFor sid).path.toList := by
  have h : '/' ∈ "rimary-for/".toList := by decide
  rw [primaryFor_toList]
  simp only [List.mem_cons, List.mem_append, h, true_or, or_true]

theorem no_slash_of_path_eq {id : String} {k : Key} (hid : '/' ∉ id.toList)
    (h : k.path = (Key.canonical id).path) : '/' ∉ k.path.toList := by
  rw [h]
  exact hid

theorem byName_path_ne (sid name sid' : String) :
    (Key.byName sid name).path ≠ (Key.primaryFor sid').path := by
  intro h
  rw [← String.toList_inj, byName_toList, primaryFor_toList] at h
  have h4 := (List.cons.inj (List.cons.inj (List.cons.inj (List.cons.inj h).2).2).2).1
  exact absurd h4 (by decide)

theorem eq_of_uri_eq {k k' : Key} (hk : k.Clean) (hk' : k'.Asked) (h : k'.uri = k.uri) :
    k' = k := by
  have hpath : k'.path = k.path := by
    rw [uri_eq, uri_eq, ← String.toList_inj, String.toList_append, String.toList_append] at h
    exact String.toList_inj.mp (List.append_cancel_left h)
  cases k with
  | canonical id =>
    cases k' with
    | canonical id' => rw [show id' = id from hpath]
    | byName s n => exact absurd (slash_mem_byName s n) (no_slash_of_path_eq hk hpath)
    | primaryFor s => exact absurd (slash_mem_primaryFor s) (no_slash_of_path_eq hk hpath)
  | byName s n =>
    cases k' with
    | canonical id' => exact absurd (slash_mem_byName s n) (no_slash_of_path_eq hk' hpath.symm)
    | byName s' n' =>
      have hlist := congrArg String.toList hpath
      rw [byName_toList, byName_toList] at hlist
      simp only [List.cons.injEq, true_and, List.append_cancel_left_eq] at hlist
      obtain ⟨hs, hn⟩ := cut_unique hk.1 hk.2 hlist
      rw [String.toList_inj.mp hs, String.toList_inj.mp hn]
    | primaryFor s' => exact absurd hpath.symm (byName_path_ne s n s')
  | primaryFor s =>
    cases k' with
    | canonical id' => exact absurd (slash_mem_primaryFor s) (no_slash_of_path_eq hk' hpath.symm)
    | byName s' n' => exact absurd hpath (byName_path_ne s' n' s)
    | primaryFor s' =>
      have hlist := congrArg String.toList hpath
      rw [primaryFor_toList, primaryFor_toList] at hlist
      simp only [List.cons.injEq, true_and, List.append_cancel_left_eq] at hlist
      rw [String.toList_inj.mp hlist]

end Key

/-! ## The rows that should be there -/

/-- The row of each key, read off the registry. -/
def ideal (reg : InstanceRegistry.State Config) :
    Key → Option (UriStore.Row String (Instance Config))
  | .canonical id => (reg.table.lookup id).map fun inst => .entity "agent" inst
  | .byName sid name => (reg.nameIndex.lookup (sid, name)).map fun id => .aliasTo (canonicalUri id)
  | .primaryFor sid => (reg.primaryRows.lookup sid).bind fun name =>
      (reg.nameIndex.lookup (sid, name)).map fun id => .aliasTo (canonicalUri id)

/-- Ids, names and session ids have no slash. -/
def Tidy (rows : Ets String (Instance Config)) : Prop :=
  ∀ id inst, rows.lookup id = some inst →
    '/' ∉ id.toList ∧ '/' ∉ inst.name.toList ∧ ∀ s ∈ inst.sessionIds, '/' ∉ s.toList

/-- What the registry has to be for the store to follow it. -/
structure Regular (reg : InstanceRegistry.State Config) : Prop where
  sound : Sound reg
  indexed : Indexed reg
  tidy : Tidy reg.table

/-- Outside `E` the store holds the ideal rows, and it holds no wrong alias under a
name that is in use. -/
structure Pending (reg : InstanceRegistry.State Config) (t : AgentStore Config) (E : Set Key) :
    Prop where
  off : ∀ k : Key, k.Asked → k ∉ E → t.lookup k.uri = ideal reg k
  aliases : ∀ sid name, ideal reg (.byName sid name) ≠ none →
    t.lookup (byNameUri sid name) = none ∨
      t.lookup (byNameUri sid name) = ideal reg (.byName sid name)

variable {reg : InstanceRegistry.State Config} {t t' : AgentStore Config} {E E' : Set Key}
  {inst : Instance Config}

theorem Pending.mono (h : Pending reg t E) (hE : E ⊆ E') : Pending reg t E' :=
  ⟨fun k hk hne => h.off k hk fun he => hne (hE he), h.aliases⟩

theorem Pending.settle (h : Pending reg t E) {k : Key} (hk : k.Clean)
    (hat : t'.lookup k.uri = ideal reg k)
    (hother : ∀ u, u ≠ k.uri → t'.lookup u = t.lookup u) : Pending reg t' (E \ {k}) := by
  refine ⟨fun k' hk' hne => ?_, fun sid name hin => ?_⟩
  · by_cases he : k' = k
    · rw [he, hat]
    · rw [hother _ fun hu => he (Key.eq_of_uri_eq hk hk' hu)]
      exact h.off k' hk' fun hE => hne ⟨hE, he⟩
  · by_cases he : (Key.byName sid name) = k
    · exact Or.inr (by rw [he, ← hat, ← he]; rfl)
    · have hne : byNameUri sid name ≠ k.uri := fun hu =>
        he (Key.eq_of_uri_eq hk (show (Key.byName sid name).Asked from trivial) hu)
      rw [hother _ hne]
      exact h.aliases sid name hin

/-! ## Rows of the registry -/

theorem Regular.clean_canonical (hr : Regular reg) (hrow : reg.table.lookup inst.id = some inst) :
    (Key.canonical inst.id).Clean := (hr.tidy _ _ hrow).1

theorem Regular.clean_byName (hr : Regular reg) (hrow : reg.table.lookup inst.id = some inst)
    {s : String} (hs : s ∈ inst.sessionIds) : (Key.byName s inst.name).Clean :=
  ⟨(hr.tidy _ _ hrow).2.2 s hs, (hr.tidy _ _ hrow).2.1⟩

theorem ideal_canonical (hrow : reg.table.lookup inst.id = some inst) :
    ideal reg (.canonical inst.id) = some (.entity "agent" inst) := by
  rw [ideal, hrow]
  rfl

theorem Regular.ideal_byName (hr : Regular reg) (hrow : reg.table.lookup inst.id = some inst)
    {s : String} (hs : s ∈ inst.sessionIds) :
    ideal reg (.byName s inst.name) = some (.aliasTo (canonicalUri inst.id)) := by
  rw [ideal, hr.indexed inst.id s inst.name ⟨inst, hrow, rfl, hs⟩]
  rfl

theorem Regular.mem_list (hr : Regular reg) {s : String} :
    inst ∈ InstanceRegistry.list reg s ↔
      reg.table.lookup inst.id = some inst ∧ s ∈ inst.sessionIds :=
  InstanceRegistry.mem_list hr.sound hr.indexed

end UriCompat
end Esr
