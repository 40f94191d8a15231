import Mathlib.Logic.Function.Basic
import Mathlib.Data.List.Basic

/-! # How often the inbound guards send a message

`UnboundUserGuard` (keys: open ids), `UnboundChatGuard` (keys: app and chat) and
`CapGuard` (keys: principals, and senders with a media kind) answer `note_emit?` from
the time of the last message for the key.  A history of calls shows when they send. -/
namespace Esr.EmitGuard

variable {K : Type} [DecidableEq K]

inductive Reply
  | emit
  | rateLimited
  deriving DecidableEq

/-- The `GenServer`'s state.  A table of a second kind of keys, as `CapGuard` has, is the
same function on the sum of the two kinds. -/
structure State (K : Type) where
  lastEmit : K → Option Int
  intervalMs : Int

def init (intervalMs : Int) : State K := ⟨fun _ => none, intervalMs⟩

/-- `handle_call({:note_emit?, key})` when the monotonic clock shows `now`. -/
def handleCall (s : State K) (key : K) (now : Int) : Reply × State K :=
  if (s.lastEmit key).all fun last => decide (now - last ≥ s.intervalMs) then
    (.emit, { s with lastEmit := Function.update s.lastEmit key (some now) })
  else
    (.rateLimited, s)

structure Entry (K : Type) where
  key : K
  now : Int
  reply : Reply

/-- The calls and their answers, oldest first. -/
def serve (s : State K) : List (K × Int) → List (Entry K)
  | [] => []
  | (key, now) :: calls =>
    ⟨key, now, (handleCall s key now).1⟩ :: serve (handleCall s key now).2 calls

/-- The message of the key `k` in the entry, if it sent one. -/
def Sent (d : Entry K) (k : K) : Prop := d.key = k ∧ d.reply = .emit

/-- The table holds the latest message of each key. -/
structure Latest (interval : Int) (past : List (Entry K)) (s : State K) : Prop where
  interval_eq : s.intervalMs = interval
  stored : ∀ k last, s.lastEmit k = some last → ∃ d ∈ past, Sent d k ∧ d.now = last
  bound : ∀ d ∈ past, ∀ k, Sent d k → ∃ last, s.lastEmit k = some last ∧ d.now ≤ last

/-- One call: it sends exactly if no message of its key is too recent. -/
theorem Latest.emit_iff {interval now : Int} {past : List (Entry K)} {s : State K} {k : K}
    (h : Latest interval past s) :
    (handleCall s k now).1 = .emit ↔ ∀ d ∈ past, Sent d k → interval ≤ now - d.now := by
  have hreply : (handleCall s k now).1 = .emit ↔
      ∀ last, s.lastEmit k = some last → interval ≤ now - last := by
    cases hk : s.lastEmit k <;> simp [handleCall, hk, h.interval_eq, apply_ite Prod.fst]
  rw [hreply]
  constructor
  · intro hlast d hd hsent
    obtain ⟨last, hk, hle⟩ := h.bound d hd k hsent
    have := hlast last hk
    omega
  · intro hpast last hk
    obtain ⟨d, hd, hsent, rfl⟩ := h.stored k last hk
    exact hpast d hd hsent

theorem Latest.step {interval now : Int} {past : List (Entry K)} {s : State K} {k : K}
    (h : Latest interval past s) (hnow : ∀ d ∈ past, d.now ≤ now) :
    Latest interval (past ++ [⟨k, now, (handleCall s k now).1⟩]) (handleCall s k now).2 := by
  obtain ⟨hi, hs, hb⟩ := h
  unfold handleCall
  split
  · refine ⟨hi, fun k' last hk' => ?_, fun d hd k' hsent => ?_⟩
    · by_cases hkk : k' = k
      · exact ⟨⟨k, now, .emit⟩, by simp, ⟨hkk.symm, rfl⟩, by simpa [hkk] using hk'⟩
      · grind [hs k' last (by simpa [hkk] using hk')]
    · -- The clock is monotone, so what is sent now is the latest.
      by_cases hkk : k' = k
      · exact ⟨now, by simp [hkk], by grind⟩
      · grind [Sent]
  · exact ⟨hi, by grind, by grind [Sent]⟩

end Esr.EmitGuard
