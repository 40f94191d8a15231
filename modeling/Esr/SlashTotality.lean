import Esr.SlashHandler

/-! # Which dispatches the slash handler survives

Both entries of the handler read terms that come from outside: the envelope of a
chat message, and the command of a queue file.  `takes` says of such an input that
nothing in it makes the handler raise.  For a command that is a submitter and a
permission `Capability.has?/2` has a clause for, if it is asked at all; for a text,
that the payload, and the arguments as far as they are read, are maps, and that the
text and the principal it shows have a text.

`handle_ne_raised` follows the functions of the handler with the relation `Sound`: a
computation that does not raise, whichever way it is refused.
-/
namespace Esr
namespace SlashHandler
open Yaml

/-! ## The conditions -/

/-- The value under a key of a map, and `null` where there is none. -/
def field (key : String) : Value → Value
  | .map m => (get key m).getD .null
  | _ => .null

/-- The arguments in the payload. -/
def argsOf (envelope : Value) : Value := field "args" (field "payload" envelope)

/-- The envelope and its payload can be read. -/
def envelopeReads (envelope : Value) : Bool :=
  readable envelope && readable (field "payload" envelope)

/-- The arguments in the payload can be read. -/
def argsRead (envelope : Value) : Bool := readable (argsOf envelope)

/-- The text of the message can be read. -/
def textReads (envelope : Value) : Bool :=
  let text := field "text" (field "payload" envelope)
  let content := field "content" (argsOf envelope)
  if truthy text then Writer.hasText text
  else argsRead envelope && (!truthy content || Writer.hasText content)

/-- The open id is found before the arguments are read, or they can be. -/
def openIdReads (envelope : Value) : Bool :=
  truthy (field "user_id" envelope) || truthy (field "principal_id" envelope) ||
    truthy (field "user_id" (field "payload" envelope)) || argsRead envelope

/-- The principal a refusal shows has a text. -/
def principalShows (envelope : Value) : Bool :=
  let principal := field "principal_id" envelope
  let user := field "user_id" envelope
  if truthy principal then Writer.hasText principal else !truthy user || Writer.hasText user

variable (rt : Runtime)

/-- The term is `null` or empty where the code asks `value in [nil, ""]`. -/
def blankResult (r : Except Stop Value) : Bool :=
  match r with
  | .ok v => isBlank (some v)
  | .error _ => false

/-- The workspace of the chat, as `check_workspace_binding/2` asks for it. -/
def boundWorkspace (envelope : Value) : Except Stop Value := do
  let chatId ← envelopeChatId envelope
  let appId ← envelopeAppId envelope
  return resolveWorkspace rt chatId appId

/-- What the user binding of the route and the arguments of the command need. -/
def takesUser (route : SlashRoute) (envelope : Value) : Bool :=
  if route.requiresUserBinding then
    openIdReads envelope &&
      if blankResult (resolveUsername rt envelope) then principalShows envelope
      else argsRead envelope
  else argsRead envelope

/-- What the bindings of the route and the arguments of the command need. -/
def takesRoute (text : String) (route : SlashRoute) (envelope : Value) : Bool :=
  match parseRouteArgs text route with
  | .error _ => true
  | .ok _ =>
      if route.requiresWorkspaceBinding then
        argsRead envelope &&
          (blankResult (boundWorkspace rt envelope) || takesUser rt route envelope)
      else takesUser rt route envelope

/-- A text the handler takes. -/
def takesText (envelope : Value) : Bool :=
  envelopeReads envelope && textReads envelope &&
    match extractText envelope with
    | .ok text =>
        match rt.registry.lookup text with
        | some route => takesRoute rt text route envelope
        | none => true
    | .error _ => true

/-- A command the handler takes: `Capability.has?/2` is not asked, or has a clause. -/
def takesQueue (table : Grants.Table) (command : Entries) : Bool :=
  match get "kind" command with
  | some (.str kind) =>
      match rt.registry.permissionFor kind with
      | none | some .null => true
      | some required =>
          bootstrapBypass table (submitterOf command) kind ||
            (isText (submitterOf command) && isText required)
  | _ => true

/-- The inputs the handler takes. -/
def takes (table : Grants.Table) : Entry → Bool
  | .text envelope _ => takesText rt envelope
  | .queue command => takesQueue rt table command

/-! ## Computations that do not raise -/

/-- The computation does not raise. -/
def Sound {α : Type} (x : Except Stop α) : Prop := x ≠ .error .raised

theorem sound_ok {α : Type} (a : α) : Sound (.ok a : Except Stop α) := by
  rintro ⟨⟩

theorem sound_refused {α : Type} (message : String) :
    Sound (.error (.refused message) : Except Stop α) := by
  rintro ⟨⟩

theorem Sound.bind {α β : Type} {x : Except Stop α} {f : α → Except Stop β} (hx : Sound x)
    (hf : ∀ a, x = .ok a → Sound (f a)) : Sound (x >>= f) := by
  cases x with
  | ok a => exact hf a rfl
  | error e => exact fun h => hx (congrArg _ (Except.error.inj h))

theorem Sound.orElse {a b : Except Stop Value} (ha : Sound a)
    (hb : ∀ v, a = .ok v → truthy v = false → Sound b) : Sound (orElse a b) := by
  refine ha.bind fun v hv => ?_
  cases ht : truthy v with
  | true => exact sound_ok v
  | false => exact hb v hv ht

/-! ## Reading -/

section
variable {envelope v : Value} {key : String}

theorem access_eq (h : readable v = true) : access key v = .ok (field key v) := by
  cases v with
  | map m => rfl
  | null => rfl
  | _ => cases h

theorem toStr_ok (h : Writer.hasText v = true) : ∃ s, toStr v = .ok s := by
  obtain ⟨s, hs⟩ := Option.isSome_iff_exists.mp h
  exact ⟨s, by rw [toStr, hs]⟩

theorem toStr_sound (h : Writer.hasText v = true) : Sound (toStr v) := by
  obtain ⟨s, hs⟩ := toStr_ok h
  rw [hs]
  exact sound_ok s

theorem readable_of_reads (h : envelopeReads envelope = true) :
    readable envelope = true ∧ readable (field "payload" envelope) = true :=
  Bool.and_eq_true_iff.mp h

theorem getIn_payload (h : envelopeReads envelope = true) :
    getIn envelope ["payload", key] = .ok (field key (field "payload" envelope)) := by
  obtain ⟨henv, hpayload⟩ := readable_of_reads h
  have htwo : getIn envelope ["payload", key] =
      (access "payload" envelope).bind (fun v => access key v) := by
    simp only [getIn, List.foldlM_cons, List.foldlM_nil, bind_pure]
    rfl
  rw [htwo, access_eq henv]
  exact access_eq hpayload

theorem getIn_args (h : envelopeReads envelope = true) :
    getIn envelope ["payload", "args", key] = access key (argsOf envelope) := by
  obtain ⟨henv, hpayload⟩ := readable_of_reads h
  have hthree : getIn envelope ["payload", "args", key] =
      (access "payload" envelope).bind fun v => (access "args" v).bind fun w => access key w := by
    simp only [getIn, List.foldlM_cons, List.foldlM_nil, bind_pure]
    rfl
  rw [hthree, access_eq henv]
  show (access "args" (field "payload" envelope)).bind _ = _
  rw [access_eq hpayload]
  rfl

theorem getIn_args_sound (h : envelopeReads envelope = true) (ha : argsRead envelope = true) :
    Sound (getIn envelope ["payload", "args", key]) := by
  rw [getIn_args h, access_eq ha]
  exact sound_ok _

theorem payloadOrArgs_sound (h : envelopeReads envelope = true) (ha : argsRead envelope = true) :
    Sound (orElse (getIn envelope ["payload", key]) (getIn envelope ["payload", "args", key])) := by
  refine Sound.orElse ?_ fun _ _ _ => getIn_args_sound h ha
  rw [getIn_payload h]
  exact sound_ok _

theorem extractText_ok (h : envelopeReads envelope = true) (ht : textReads envelope = true) :
    ∃ text, extractText envelope = .ok text := by
  unfold extractText
  rw [getIn_payload h, getIn_args h]
  unfold textReads at ht
  dsimp only at ht
  cases htext : truthy (field "text" (field "payload" envelope)) with
  | true =>
    rw [htext, if_pos rfl] at ht
    have hor : orElse (.ok (field "text" (field "payload" envelope)))
        (orElse (access "content" (argsOf envelope)) (.ok (.str ""))) =
        .ok (field "text" (field "payload" envelope)) := if_pos htext
    rw [hor]
    exact toStr_ok ht
  | false =>
    rw [htext, if_neg Bool.false_ne_true] at ht
    obtain ⟨hargs, hcontent⟩ := Bool.and_eq_true_iff.mp ht
    have hor : orElse (.ok (field "text" (field "payload" envelope)))
        (orElse (access "content" (argsOf envelope)) (.ok (.str ""))) =
        orElse (access "content" (argsOf envelope)) (.ok (.str "")) :=
      if_neg (Bool.eq_false_iff.mp htext)
    rw [hor, access_eq hargs]
    cases hc : truthy (field "content" (argsOf envelope)) with
    | true =>
      rw [hc] at hcontent
      have hsome : orElse (.ok (field "content" (argsOf envelope))) (.ok (.str "")) =
          .ok (field "content" (argsOf envelope)) := if_pos hc
      rw [hsome]
      exact toStr_ok hcontent
    | false =>
      have hnone : orElse (.ok (field "content" (argsOf envelope))) (.ok (.str "")) =
          .ok (.str "") := if_neg (Bool.eq_false_iff.mp hc)
      rw [hnone]
      exact ⟨"", rfl⟩

end

/-! ## A route -/

section
variable {rt : Runtime} {envelope : Value} {route : SlashRoute}

theorem parseRouteArgs_sound (text : String) : Sound (parseRouteArgs text route) := by
  have hrequired : ∀ args specs, Sound (validateRequired args specs route.slash) := by
    intro args specs
    unfold validateRequired
    split
    · exact sound_ok ()
    · exact sound_refused _
    · exact sound_refused _
  unfold parseRouteArgs
  split
  · exact sound_ok []
  · exact (hrequired _ _).bind fun _ _ => sound_ok _

theorem boundWorkspace_sound (h : envelopeReads envelope = true) (ha : argsRead envelope = true) :
    Sound (boundWorkspace rt envelope) :=
  (payloadOrArgs_sound h ha).bind fun _ _ => (getIn_args_sound h ha).bind fun _ _ => sound_ok _

theorem checkWorkspaceBinding_eq (hw : route.requiresWorkspaceBinding = true) :
    checkWorkspaceBinding rt route envelope = (do
      let ws ← boundWorkspace rt envelope
      if isBlank (some ws) then
        .error (.refused ("this command requires the chat to be bound to a workspace; " ++
          "run `/workspace:new <name>` first"))
      else .ok ()) := by
  unfold checkWorkspaceBinding boundWorkspace
  rw [if_pos hw]
  simp only [bind_assoc, pure_bind]

theorem checkWorkspaceBinding_sound (h : envelopeReads envelope = true)
    (ha : route.requiresWorkspaceBinding = true → argsRead envelope = true) :
    Sound (checkWorkspaceBinding rt route envelope) := by
  cases hw : route.requiresWorkspaceBinding with
  | false =>
    unfold checkWorkspaceBinding
    rw [if_neg (Bool.eq_false_iff.mp hw)]
    exact sound_ok ()
  | true =>
    rw [checkWorkspaceBinding_eq hw]
    refine (boundWorkspace_sound h (ha hw)).bind fun ws _ => ?_
    split_ifs
    · exact sound_refused _
    · exact sound_ok ()

theorem not_blank_of_bound {u : Unit} (hw : route.requiresWorkspaceBinding = true)
    (hok : checkWorkspaceBinding rt route envelope = .ok u) :
    blankResult (boundWorkspace rt envelope) = false := by
  rw [checkWorkspaceBinding_eq hw] at hok
  cases hws : boundWorkspace rt envelope with
  | error e => rfl
  | ok ws =>
    rw [hws] at hok
    by_cases hb : isBlank (some ws) = true
    · have hrefused : (Except.error (.refused ("this command requires the chat to be bound to a " ++
          "workspace; " ++ "run `/workspace:new <name>` first")) : Except Stop Unit) = .ok u := by
        refine Eq.trans ?_ hok
        show _ = if isBlank (some ws) = true then _ else _
        rw [if_pos hb]
        rfl
      cases hrefused
    · exact Bool.eq_false_iff.mpr hb

theorem resolveUsername_sound (h : envelopeReads envelope = true)
    (hid : openIdReads envelope = true) : Sound (resolveUsername rt envelope) := by
  obtain ⟨henv, -⟩ := readable_of_reads h
  unfold resolveUsername
  refine Sound.bind ?_ fun openId _ => ?_
  · rw [access_eq henv, access_eq henv, getIn_payload h]
    refine Sound.orElse (sound_ok _) fun v hv hfalse => ?_
    refine Sound.orElse (sound_ok _) fun v' hv' hfalse' => ?_
    refine Sound.orElse (sound_ok _) fun v'' hv'' hfalse'' => ?_
    obtain rfl := Except.ok.inj hv
    obtain rfl := Except.ok.inj hv'
    obtain rfl := Except.ok.inj hv''
    refine getIn_args_sound h ?_
    simpa [openIdReads, hfalse, hfalse', hfalse''] using hid
  · split
    · split_ifs
      · exact sound_ok _
      · split <;> exact sound_ok _
    · exact sound_ok _

theorem checkUserBinding_sound (h : envelopeReads envelope = true)
    (hid : route.requiresUserBinding = true → openIdReads envelope = true)
    (hp : route.requiresUserBinding = true →
      blankResult (resolveUsername rt envelope) = true → principalShows envelope = true) :
    Sound (checkUserBinding rt route envelope) := by
  obtain ⟨henv, -⟩ := readable_of_reads h
  unfold checkUserBinding
  split_ifs with hu
  · refine (resolveUsername_sound h (hid hu)).bind fun username hname => ?_
    split_ifs with hblank
    · have hshows := hp hu (by rw [hname]; exact hblank)
      rw [access_eq henv, access_eq henv]
      unfold principalShows at hshows
      dsimp only at hshows
      refine Sound.bind ?_ fun principal hprincipal => ?_
      · exact Sound.orElse (sound_ok _) fun _ _ _ =>
          Sound.orElse (sound_ok _) fun _ _ _ => sound_ok _
      · refine Sound.bind ?_ fun _ _ => sound_refused _
        refine toStr_sound ?_
        cases hpr : truthy (field "principal_id" envelope) with
        | true =>
          have he : principal = field "principal_id" envelope :=
            (Except.ok.inj ((if_pos hpr).symm.trans hprincipal)).symm
          rw [hpr, if_pos rfl] at hshows
          rw [he]
          exact hshows
        | false =>
          have hrest : orElse (.ok (field "user_id" envelope)) (.ok (.str "(unknown open_id)")) =
              .ok principal := (if_neg (Bool.eq_false_iff.mp hpr)).symm.trans hprincipal
          rw [hpr, if_neg Bool.false_ne_true] at hshows
          cases hus : truthy (field "user_id" envelope) with
          | true =>
            have he : principal = field "user_id" envelope :=
              (Except.ok.inj ((if_pos hus).symm.trans hrest)).symm
            rw [hus] at hshows
            rw [he]
            exact hshows
          | false =>
            have he : principal = .str "(unknown open_id)" :=
              (Except.ok.inj ((if_neg (Bool.eq_false_iff.mp hus)).symm.trans hrest)).symm
            rw [he]
            rfl
    · exact sound_ok ()
  · exact sound_ok ()

theorem not_blank_of_bound_user {u : Unit} (hub : route.requiresUserBinding = true)
    (hok : checkUserBinding rt route envelope = .ok u) :
    blankResult (resolveUsername rt envelope) = false := by
  unfold checkUserBinding at hok
  rw [if_pos hub] at hok
  cases hname : resolveUsername rt envelope with
  | error e => rfl
  | ok username =>
    refine Bool.eq_false_iff.mpr fun hblank => ?_
    have hb : isBlank (some username) = true := hblank
    rw [hname] at hok
    simp only [bind, Except.bind, hb, if_true] at hok
    split at hok
    · cases hok
    · split at hok <;> cases hok

theorem injectEnvelopeArgs_sound (h : envelopeReads envelope = true)
    (ha : argsRead envelope = true) (args : Entries) :
    Sound (injectEnvelopeArgs args envelope) := by
  obtain ⟨henv, -⟩ := readable_of_reads h
  refine (payloadOrArgs_sound h ha).bind fun _ _ => (payloadOrArgs_sound h ha).bind fun _ _ =>
    (getIn_args_sound h ha).bind fun _ _ => Sound.bind ?_ fun _ _ => sound_ok _
  rw [access_eq henv, access_eq henv]
  exact Sound.orElse (sound_ok _) fun _ _ _ => sound_ok _

theorem ptyKey_sound (h : envelopeReads envelope = true) (ht : textReads envelope = true)
    (args : Entries) : Sound (mergeChatContext rt args "pty_key" envelope) := by
  show Sound (do
    let v ← orElse (getIn envelope ["payload", "text"]) (.ok (.str ""))
    let text ← toStr v
    return maybePut "keys" (.str (trim (stripSlashPrefix text "/pty:key"))) args)
  rw [getIn_payload h]
  unfold textReads at ht
  dsimp only at ht
  refine Sound.bind ?_ fun v hv => Sound.bind ?_ fun _ _ => sound_ok _
  · exact Sound.orElse (sound_ok _) fun _ _ _ => sound_ok _
  · refine toStr_sound ?_
    cases htext : truthy (field "text" (field "payload" envelope)) with
    | true =>
      obtain rfl := Except.ok.inj ((if_pos htext).symm.trans hv)
      rw [htext, if_pos rfl] at ht
      exact ht
    | false =>
      obtain rfl := Except.ok.inj ((if_neg (Bool.eq_false_iff.mp htext)).symm.trans hv)
      rfl

theorem mergeChatContext_sound (h : envelopeReads envelope = true) (ht : textReads envelope = true)
    (ha : argsRead envelope = true) (args : Entries) (kind : String) :
    Sound (mergeChatContext rt args kind envelope) := by
  have hid : openIdReads envelope = true := by simp [openIdReads, ha]
  have hname : Sound (resolveUsername rt envelope) := resolveUsername_sound h hid
  have hfield : ∀ key, Sound (orElse (getIn envelope ["payload", key])
      (getIn envelope ["payload", "args", key])) := fun _ => payloadOrArgs_sound h ha
  have happ : Sound (envelopeAppId envelope) := getIn_args_sound h ha
  unfold mergeChatContext
  split
  · exact (hfield _).bind fun _ _ => (hfield _).bind fun _ _ => hname.bind fun _ _ => sound_ok _
  · exact (hfield _).bind fun _ _ => (hfield _).bind fun _ _ => happ.bind fun _ _ =>
      hname.bind fun _ _ => sound_ok _
  · exact (hfield _).bind fun _ _ => happ.bind fun _ _ => hname.bind fun _ _ => sound_ok _
  · exact (hfield _).bind fun _ _ => happ.bind fun _ _ => hname.bind fun _ _ => sound_ok _
  · exact (hfield _).bind fun _ _ => happ.bind fun _ _ => hname.bind fun _ _ => sound_ok _
  · show Sound (mergeChatContext rt args "pty_key" envelope)
    exact ptyKey_sound h ht args
  · exact sound_ok args

theorem afterWorkspace_sound (h : envelopeReads envelope = true) (ht : textReads envelope = true)
    (hu : takesUser rt route envelope = true) (parsed : Entries) :
    Sound (do
      checkUserBinding rt route envelope
      let injected ← injectEnvelopeArgs parsed envelope
      let merged ← mergeChatContext rt injected route.kind envelope
      return maybeDeriveSessionNewCwd rt merged route.kind : Except Stop Entries) := by
  unfold takesUser at hu
  have hargs : ∀ u, checkUserBinding rt route envelope = .ok u → argsRead envelope = true := by
    intro u hok
    cases hub : route.requiresUserBinding with
    | false =>
      rw [hub] at hu
      exact hu
    | true =>
      rw [hub, if_pos rfl] at hu
      obtain ⟨hid, hrest⟩ := Bool.and_eq_true_iff.mp hu
      rw [not_blank_of_bound_user hub hok] at hrest
      exact hrest
  refine Sound.bind (checkUserBinding_sound h ?_ ?_) fun u hok => ?_
  · intro hub
    rw [hub, if_pos rfl] at hu
    exact (Bool.and_eq_true_iff.mp hu).1
  · intro hub hblank
    rw [hub, if_pos rfl, hblank, if_pos rfl] at hu
    exact (Bool.and_eq_true_iff.mp hu).2
  · have ha := hargs u hok
    exact (injectEnvelopeArgs_sound h ha parsed).bind fun injected _ =>
      (mergeChatContext_sound h ht ha injected route.kind).bind fun _ _ => sound_ok _

theorem prepareArgs_sound {text : String} (h : envelopeReads envelope = true)
    (ht : textReads envelope = true) (hr : takesRoute rt text route envelope = true) :
    Sound (prepareArgs rt text route envelope) := by
  unfold takesRoute at hr
  refine (parseRouteArgs_sound text).bind fun parsed hparsed => ?_
  rw [hparsed] at hr
  dsimp only at hr
  cases hw : route.requiresWorkspaceBinding with
  | false =>
    rw [hw] at hr
    refine (checkWorkspaceBinding_sound h ?_).bind fun _ _ => afterWorkspace_sound h ht hr parsed
    intro hyes
    rw [hw] at hyes
    cases hyes
  | true =>
    rw [hw, if_pos rfl] at hr
    obtain ⟨ha, hrest⟩ := Bool.and_eq_true_iff.mp hr
    refine (checkWorkspaceBinding_sound h fun _ => ha).bind fun u hok => ?_
    rw [not_blank_of_bound hw hok, Bool.false_or] at hrest
    exact afterWorkspace_sound h ht hrest parsed

end

/-! ## The two entries -/

variable {rt : Runtime}

theorem started_ne_raised (command : Entries) : Outcome.started command ≠ .raised := by
  rintro ⟨⟩

theorem answered_ne_raised (answer : Answer) : Outcome.answered answer ≠ .raised := by
  rintro ⟨⟩

theorem dispatch_ne_raised {envelope : Value} (id : String)
    (h : takesText rt envelope = true) : dispatch rt envelope id ≠ .raised := by
  unfold takesText at h
  obtain ⟨hreads, hroute⟩ := Bool.and_eq_true_iff.mp h
  obtain ⟨henv, htext⟩ := Bool.and_eq_true_iff.mp hreads
  obtain ⟨text, hx⟩ := extractText_ok henv htext
  have hprincipal : ∃ p, orElse (access "principal_id" envelope) (.ok (.str "ou_unknown")) =
      .ok p := by
    rw [access_eq (readable_of_reads henv).1]
    by_cases hp : truthy (field "principal_id" envelope) = true
    · exact ⟨_, if_pos hp⟩
    · exact ⟨_, if_neg hp⟩
  obtain ⟨principalId, hp⟩ := hprincipal
  rw [hx] at hroute
  dsimp only at hroute
  unfold dispatch
  rw [hp, hx]
  dsimp only
  cases hl : rt.registry.lookup text with
  | none => exact answered_ne_raised _
  | some route =>
    rw [hl] at hroute
    have hs := prepareArgs_sound henv htext hroute
    dsimp only
    cases hpa : prepareArgs rt text route envelope with
    | ok args => exact started_ne_raised _
    | error e =>
      cases e with
      | refused message => exact answered_ne_raised _
      | raised => exact absurd hpa hs

theorem dispatchCommand_ne_raised {table : Grants.Table} {command : Entries}
    (h : takesQueue rt table command = true) : dispatchCommand rt table command ≠ .raised := by
  unfold takesQueue at h
  unfold dispatchCommand
  split
  · rename_i kind hkind
    rw [hkind] at h
    dsimp only at h
    split
    · exact answered_ne_raised _
    · exact started_ne_raised _
    · rename_i required hnull hrequired
      rw [hrequired] at h
      split_ifs with hb
      · exact started_ne_raised _
      · have htexts : isText (submitterOf command) = true ∧ isText required = true := by
          cases required with
          | null => exact absurd rfl hnull
          | _ => simpa [Bool.eq_false_iff.mpr hb] using h
        obtain ⟨hsubmitter, hperm⟩ := htexts
        cases hs : submitterOf command with
        | str principal =>
          cases required with
          | str perm =>
            unfold capabilityHas
            dsimp only
            cases Capability.has rt.resolve table principal perm with
            | true => exact started_ne_raised _
            | false => exact answered_ne_raised _
          | _ => cases hperm
        | _ =>
          rw [hs] at hsubmitter
          cases hsubmitter
  · exact answered_ne_raised _

theorem handle_ne_raised {table : Grants.Table} {entry : Entry}
    (h : takes rt table entry = true) : handle rt table entry ≠ .raised := by
  cases entry with
  | text envelope id =>
    unfold handle
    exact dispatch_ne_raised id h
  | queue command =>
    unfold handle
    exact dispatchCommand_ne_raised h

end SlashHandler
end Esr
