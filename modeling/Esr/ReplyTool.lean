import Esr.FeishuChatProxy

/-! # What the reply tool reports

A call of the `reply` tool is answered by one result, and what the result says has to be
what was done: `Honest`.  The proxy takes the calls one after the other, and a call that
ends it takes those behind it along.  So the calls are answered honestly exactly when
each of them is `Deliverable`.
-/
namespace Esr
namespace ReplyTool
open Yaml FeishuChatProxy
open EntityServer (Pid access orElse)

/-- A call of the tool. -/
structure Invocation where
  reqId : Value
  args : Value
  channelPid : Pid

/-- The message it is. -/
def Invocation.msg (inv : Invocation) : Msg := .replyTool inv.reqId inv.args inv.channelPid

/-- What is sent to the adapters. -/
def outbounds (es : List Effect) : List (Pid × Entries) :=
  es.filterMap fun
    | .outbound pid envelope => some (pid, envelope)
    | _ => none

/-- What is sent to those who called. -/
def results (es : List Effect) : List Effect :=
  es.filter fun
    | .pushEnvelope _ _ => true
    | _ => false

/-- The chat asked for; without one, the chat of the session. -/
def requestedChat (s : State) (args : Entries) : Value := argOr "chat_id" (.str s.chatId) args

/-- The app asked for; without one, the app of the session. -/
def requestedApp (s : State) (args : Entries) : Value := argOr "app_id" (.str s.appId) args

/-- The text to send. -/
def requestedText (args : Entries) : Value := argOr "text" (.str "") args

/-- The adapter of an app. -/
def adapterFor (env : Env) (s : State) (app : String) : Option Pid :=
  if app = s.appId then ownAdapter env s else env.lookup ("feishu_app_adapter_" ++ app)

/-- The envelope is a reply with this text for this chat. -/
def Carries (envelope : Entries) (chat text : Value) : Prop :=
  ∃ args, envelope = replyEnvelope args ∧ get "chat_id" args = some chat ∧
    get "text" args = some text

/-- One message, with the chat and the text asked for, went to the adapter of the app
asked for. -/
def Delivered (env : Env) (s : State) (args : Entries) (es : List Effect) : Prop :=
  ∃ app pid envelope, requestedApp s args = .str app ∧ adapterFor env s app = some pid ∧
    outbounds es = [(pid, envelope)] ∧ Carries envelope (requestedChat s args) (requestedText args)

/-- The principal of the session may send in the workspace of the chat asked for. -/
def Permitted (env : Env) (s : State) (args : Entries) : Prop :=
  ∃ chat app ws, requestedChat s args = .str chat ∧ requestedApp s args = .str app ∧
    env.workspaceNameForChat chat app = some ws ∧
      env.hasCapability s.principalId (msgSend ws) = true

/-- One result, which is ok only if the message was delivered; and nothing goes to
another app without permission. -/
structure Honest (env : Env) (s : State) (inv : Invocation) (o : Outcome) : Prop where
  one : ∃ ok data error, results o.effects = [replyToolResult inv.channelPid inv.reqId ok data error] ∧
    (ok = true → ∃ args, inv.args = .map args ∧ Delivered env s args o.effects)
  isolated : ∀ pid envelope, (pid, envelope) ∈ outbounds o.effects →
    ownAdapter env s = some pid ∨ ∃ args, inv.args = .map args ∧ Permitted env s args

/-- The arguments are a map; a reply to the session's own app is for its own chat, and
its adapter is there; one to another app names app and chat by texts. -/
def Deliverable (env : Env) (s : State) (inv : Invocation) : Prop :=
  ∃ args, inv.args = .map args ∧
    if (requestedApp s args).isStr s.appId then
      requestedChat s args = .str s.chatId ∧ (ownAdapter env s).isSome = true
    else ∃ chat app, requestedChat s args = .str chat ∧ requestedApp s args = .str app

/-- The calls that wait, taken in turn: what each comes to. -/
def serve (ids : Ids) : Option State → List (Env × Invocation) → List Outcome
  | _, [] => []
  | some s, (env, inv) :: rest =>
      let o := handle ids env s inv.msg
      o :: serve ids o.next rest
  | none, _ :: rest => .raised :: serve ids none rest

/-! ## The session's own app -/

section
variable {env : Env} {s : State} {inv : Invocation} {args : Entries}

theorem forwardReply_spec (env : Env) (s : State) (text replyTo : Value) :
    (ownAdapter env s = none ∧ forwardReply env s text replyTo = []) ∨
      ∃ pid envelope, ownAdapter env s = some pid ∧
        forwardReply env s text replyTo = [.outbound pid envelope] ∧
          Carries envelope (.str s.chatId) text := by
  unfold forwardReply emitToFeishuAppProxy
  cases ownAdapter env s with
  | none => exact .inl ⟨rfl, rfl⟩
  | some pid =>
    refine .inr ⟨pid, _, rfl, rfl, _, rfl, ?_, ?_⟩
    · split
      · split
        · rw [get_put_of_ne _ _ (by decide)]
          rfl
        · rfl
      · rfl
    · split
      · split
        · rw [get_put_of_ne _ _ (by decide)]
          rfl
        · rfl
      · rfl

/-! ## Another app -/

theorem dispatchCrossAppReply_spec (env : Env) (s : State) (chat app : String) (text reqId : Value)
    (channelPid : Pid) :
    (∃ error, dispatchCrossAppReply env s chat app text reqId channelPid =
      [replyToolResult channelPid reqId false .null error]) ∨
    ∃ ws pid data, env.workspaceNameForChat chat app = some ws ∧
      env.hasCapability s.principalId (msgSend ws) = true ∧
      env.lookup ("feishu_app_adapter_" ++ app) = some pid ∧
      dispatchCrossAppReply env s chat app text reqId channelPid =
        [.outbound pid (replyEnvelope [(.str "chat_id", .str chat), (.str "text", text)]),
          replyToolResult channelPid reqId true data .null] := by
  unfold dispatchCrossAppReply
  cases hws : env.workspaceNameForChat chat app with
  | none => exact .inl ⟨_, rfl⟩
  | some ws =>
    dsimp only
    split
    · rename_i hcap
      unfold dispatchToTargetApp
      cases hpid : env.lookup ("feishu_app_adapter_" ++ app) with
      | none => exact .inl ⟨_, rfl⟩
      | some pid => exact .inr ⟨ws, pid, _, rfl, hcap, rfl, rfl⟩
    · exact .inl ⟨_, rfl⟩

/-! ## One call -/

/-- What a call comes to. -/
inductive Cases (env : Env) (s : State) (inv : Invocation) (o : Outcome) : Prop
  | raised (h : o = .raised) (hno : ¬Deliverable env s inv)
  | own {args : Entries} (hargs : inv.args = .map args) (happ : requestedApp s args = .str s.appId)
      {replyTo : Value}
      (h : o = ⟨forwardReply env s (requestedText args) replyTo ++
        [replyToolResult inv.channelPid inv.reqId true (.map [(.str "delivered", .bool true)]) .null],
        some s⟩)
  | other {args : Entries} (hargs : inv.args = .map args) {chat app : String}
      (hchat : requestedChat s args = .str chat) (happ : requestedApp s args = .str app)
      (hne : app ≠ s.appId)
      (h : o = ⟨dispatchCrossAppReply env s chat app (requestedText args) inv.reqId inv.channelPid,
        some s⟩)

theorem handle_cases (ids : Ids) (env : Env) (s : State) (inv : Invocation) :
    Cases env s inv (handle ids env s inv.msg) := by
  obtain ⟨reqId, args, channelPid⟩ := inv
  show Cases env s _ (dispatchReply env s reqId args channelPid)
  unfold dispatchReply
  split
  · rename_i args
    dsimp only
    split
    · rename_i happ
      exact .own rfl (Value.isStr_iff.mp happ) rfl
    · rename_i hother
      split
      · rename_i chat app hchat happ
        refine .other rfl hchat happ ?_ rfl
        rintro rfl
        exact hother (Value.isStr_iff.mpr happ)
      · rename_i hno
        refine .raised rfl ?_
        rintro ⟨args', hargs, h⟩
        obtain rfl := Value.map.inj hargs
        rw [requestedApp, if_neg hother] at h
        obtain ⟨chat, app, hchat, happ⟩ := h
        exact hno chat app hchat happ
  · rename_i hno
    refine .raised rfl ?_
    rintro ⟨args', hargs, -⟩
    exact hno args' hargs

theorem ok_of_result_eq {pid pid' : Pid} {reqId reqId' data data' error error' : Value}
    {ok ok' : Bool} (h : replyToolResult pid reqId ok data error =
      replyToolResult pid' reqId' ok' data' error') : ok = ok' := by
  simp only [replyToolResult, Effect.pushEnvelope.injEq, List.cons.injEq, Prod.mk.injEq,
    Value.bool.injEq, true_and, and_true] at h
  exact h.2.2.2.1

theorem not_honest_raised : ¬Honest env s inv .raised := by
  rintro ⟨⟨ok, data, error, h, -⟩, -⟩
  cases h

theorem honest_own_iff (hargs : inv.args = .map args) (happ : requestedApp s args = .str s.appId)
    (replyTo data : Value) :
    Honest env s inv ⟨forwardReply env s (requestedText args) replyTo ++
      [replyToolResult inv.channelPid inv.reqId true data .null], some s⟩ ↔
      requestedChat s args = .str s.chatId ∧ (ownAdapter env s).isSome = true := by
  rcases forwardReply_spec env s (requestedText args) replyTo with
    ⟨hnone, hsent⟩ | ⟨pid, envelope, hpid, hsent, hcarries⟩
  · rw [hsent, hnone]
    constructor
    · rintro ⟨⟨ok, data', error, hone, hok⟩, -⟩
      obtain ⟨args', -, app, pid, envelope, -, -, hout, -⟩ := hok
        (ok_of_result_eq (List.cons.inj hone).1).symm
      cases hout
    · rintro ⟨-, hsome⟩
      cases hsome
  · rw [hsent, hpid]
    constructor
    · rintro ⟨⟨ok, data', error, hone, hok⟩, -⟩
      obtain ⟨args', hargs', app, pid', envelope', -, -, hout, args₁, rfl, hchat, -⟩ :=
        hok (ok_of_result_eq (List.cons.inj hone).1).symm
      obtain rfl := Value.map.inj (hargs.symm.trans hargs')
      obtain ⟨args₂, rfl, hchat', -⟩ := hcarries
      obtain rfl : args₂ = args₁ := by
        have heq := (Prod.mk.inj (List.cons.inj hout).1).2
        simp only [replyEnvelope, List.cons.injEq, Prod.mk.injEq, Value.map.injEq, true_and,
          and_true] at heq
        exact heq
      exact ⟨Option.some.inj (hchat.symm.trans hchat'), rfl⟩
    · rintro ⟨hchat, -⟩
      refine ⟨⟨true, data, .null, rfl, fun _ => ⟨args, hargs, s.appId, pid, envelope, happ, ?_, rfl, ?_⟩⟩,
        fun pid' envelope' hmem => ?_⟩
      · rw [adapterFor, if_pos rfl, hpid]
      · rw [hchat]
        exact hcarries
      · obtain ⟨rfl, -⟩ := Prod.mk.inj (List.mem_singleton.mp hmem)
        exact .inl hpid

theorem honest_other (hargs : inv.args = .map args) {chat app : String}
    (hchat : requestedChat s args = .str chat) (happ : requestedApp s args = .str app)
    (hne : app ≠ s.appId) :
    Honest env s inv ⟨dispatchCrossAppReply env s chat app (requestedText args) inv.reqId
      inv.channelPid, some s⟩ := by
  rcases dispatchCrossAppReply_spec env s chat app (requestedText args) inv.reqId inv.channelPid with
    ⟨error, h⟩ | ⟨ws, pid, data, hws, hcap, hpid, h⟩
  · rw [h]
    refine ⟨⟨false, .null, error, rfl, ?_⟩, ?_⟩
    · rintro ⟨⟩
    · rintro pid envelope ⟨⟩
  · rw [h]
    refine ⟨⟨true, data, .null, rfl, fun _ => ⟨args, hargs, app, pid, _, happ, ?_, rfl, ?_⟩⟩,
      fun pid' envelope' _ => .inr ⟨args, hargs, chat, app, ws, hchat, happ, hws, hcap⟩⟩
    · rw [adapterFor, if_neg hne, hpid]
    · rw [hchat]
      exact ⟨_, rfl, rfl, rfl⟩

theorem honest_handle_iff (ids : Ids) :
    Honest env s inv (handle ids env s inv.msg) ↔ Deliverable env s inv := by
  cases handle_cases ids env s inv with
  | raised h hno =>
    rw [h]
    exact iff_of_false not_honest_raised hno
  | own hargs happ h =>
    rename_i args replyTo
    rw [h, honest_own_iff hargs happ]
    have hself : (requestedApp s args).isStr s.appId = true := Value.isStr_iff.mpr happ
    constructor
    · intro hown
      exact ⟨args, hargs, by rw [if_pos hself]; exact hown⟩
    · rintro ⟨args', hargs', hown⟩
      obtain rfl := Value.map.inj (hargs.symm.trans hargs')
      rwa [if_pos hself] at hown
  | other hargs hchat happ hne h =>
    rename_i args chat app
    rw [h]
    refine iff_of_true (honest_other hargs hchat happ hne) ⟨args, hargs, ?_⟩
    rw [if_neg]
    · exact ⟨chat, app, hchat, happ⟩
    · rw [happ, Value.isStr_str]
      simpa using hne

theorem next_of_deliverable (ids : Ids) (h : Deliverable env s inv) :
    (handle ids env s inv.msg).next = some s := by
  cases handle_cases ids env s inv with
  | raised _ hno => exact absurd h hno
  | own _ _ h => rw [h]
  | other _ _ _ _ h => rw [h]

end

/-! ## All calls -/

/-- Every call that waits is answered honestly. -/
def AllHonest (ids : Ids) (s : State) (calls : List (Env × Invocation)) : Prop :=
  List.Forall₂ (fun call o => Honest call.1 s call.2 o) calls (serve ids (some s) calls)

/-- **The calls are answered honestly** exactly when every one of them is deliverable. -/
theorem allHonest_iff (ids : Ids) (s : State) (calls : List (Env × Invocation)) :
    AllHonest ids s calls ↔ ∀ call ∈ calls, Deliverable call.1 s call.2 := by
  unfold AllHonest
  induction calls with
  | nil => simp [serve]
  | cons call rest ih =>
    obtain ⟨env, inv⟩ := call
    rw [serve, List.forall₂_cons, List.forall_mem_cons, honest_handle_iff]
    refine and_congr_right fun hfirst => ?_
    rw [next_of_deliverable ids hfirst]
    exact ih

/-- A session whose app has no adapter. -/
def noAdapter : Env where
  listByRole := fun _ _ => []
  lookup := fun _ => none
  supportsInbound := fun _ => false
  workspaceNameForChat := fun _ _ => none
  hasCapability := fun _ _ => false
  inspect := fun s => s
  now := "2026-05-10T00:00:00Z"

/-- `reply(chat_id="oc_dev", app_id="cli_a", text="done")`. -/
def replyDone : Invocation :=
  ⟨.str "r1", .map [(.str "app_id", .str "cli_a"), (.str "chat_id", .str "oc_dev"),
    (.str "text", .str "done")], 7⟩

/-- **A reply that no adapter got is reported as delivered.** -/
theorem not_allHonest_noAdapter :
    ¬∀ (ids : Ids) (s : State) (calls : List (Env × Invocation)), AllHonest ids s calls := by
  intro h
  have hhonest := List.forall₂_cons.mp (h strokes (init "s1" "oc_dev" "" "cli_a" "ou_alice")
    [(noAdapter, replyDone)])
  obtain ⟨⟨⟨ok, data, error, hone, hok⟩, -⟩, -⟩ := hhonest
  obtain ⟨args, -, app, pid, envelope, -, -, hout, -⟩ :=
    hok (ok_of_result_eq (List.cons.inj hone).1).symm
  cases hout

end ReplyTool
end Esr
