import Esr.SessionTemplate

/-! # What a session template has to be

`Describes` says which template a `template.yaml` is the text of, entry by entry and in
the order of the document; `Closed` is the rule that the kinds and the references of a
template have to meet, over what a kind is and what a reference to a channel is.

The parser accepts the documents of the templates that are closed for one reading of
kinds and references (`parse_iff`): a kind may end with a line break, and the alias of a
reference ends at its first dot.  The rules have another reading, and `conforms_iff` says
for which documents the two agree.
-/
namespace Esr
namespace SessionTemplate
open Yaml
open EntityServer (orElse)

/-! ## The rules -/

/-- A step of a pipeline: a router token, or the name of a module. -/
def IsStep (name : String) : Prop :=
  name ≠ "" ∧ ((name.toList.head? = some '<' && name.toList.getLast? = some '>') ||
    moduleName name) = true

/-- The entry describes the channel. -/
def IsChannel (v : Value) (c : Channel) : Prop :=
  ∃ entry, v = .map entry ∧ (field "alias" entry = .str c.aliasStr ∧ c.aliasStr ≠ "") ∧
    (field "kind" entry = .str c.kind ∧ c.kind ≠ "") ∧
    orElse (.map []) (field "config" entry) = .map c.config

/-- The entry describes the agent. -/
def IsAgent (v : Value) (a : Agent) : Prop :=
  ∃ entry, v = .map entry ∧ (field "kind" entry = .str a.kind ∧ a.kind ≠ "") ∧
    (field "name" entry = .str a.name ∧ a.name ≠ "") ∧
    orElse (.list []) (field "consumes" entry) = .list (a.consumes.map .str) ∧
    ∀ name ∈ a.consumes, name ≠ ""

/-- The entry describes the flow into the session. -/
def IsInbound (v : Value) (i : Inbound) : Prop :=
  ∃ entry, v = .map entry ∧ (field "source" entry = .str i.source ∧ i.source ≠ "") ∧
    orElse (.list []) (field "pipeline" entry) = .list (i.pipeline.map .str) ∧
    ∀ name ∈ i.pipeline, IsStep name

/-- The entry describes the flow out of the session. -/
def IsOutbound (v : Value) (o : Outbound) : Prop :=
  ∃ entry, v = .map entry ∧ (field "source" entry = .str o.source ∧ o.source ≠ "") ∧
    (field "sink" entry = .str o.sink ∧ o.sink ≠ "")

/-- The term is a list whose entries describe the elements, one by one. -/
def Lists {A : Type} (R : Value → A → Prop) (v : Value) (as : List A) : Prop :=
  ∃ entries, orElse (.list []) v = .list entries ∧ List.Forall₂ R entries as

/-- **The document describes the template.** -/
structure Describes (parsed : Entries) (given : Option Dependencies) (t : Template) : Prop where
  version : get "schema_version" parsed = some t.schemaVersion ∧ isOne t.schemaVersion = true
  name : t.name = field "name" parsed
  description : t.description = orElse (.str "") (field "description" parsed)
  dependencies : resolveDependencies parsed given = .ok t.dependencies
  channels : Lists IsChannel (field "channels" parsed) t.channels
  agents : Lists IsAgent (field "agents" parsed) t.agents
  flow : ∃ flow, orElse (.map []) (field "flow" parsed) = .map flow ∧
    Lists IsInbound (field "inbound" flow) t.inbound ∧
    Lists IsOutbound (field "outbound" flow) t.outbound

/-- The aliases that a template declares. -/
def Template.aliases (t : Template) : List String := t.channels.map Channel.aliasStr

/-- The kinds of a template. -/
def Template.kinds (t : Template) : List String :=
  t.channels.map Channel.kind ++ t.agents.map Agent.kind

/-- The references of a template to its channels. -/
def Template.references (t : Template) : List String :=
  t.inbound.map Inbound.source ++ t.outbound.map Outbound.sink

/-- **The kinds and the references of a template are in order.** -/
structure Closed (kindOk : String → Prop) (refOk : List String → String → Prop)
    (t : Template) : Prop where
  unique : t.aliases.Nodup
  kinds : ∀ kind ∈ t.kinds, kindOk kind
  consumes : ∀ a ∈ t.agents, ∀ name ∈ a.consumes, name ∈ t.aliases
  references : ∀ ref ∈ t.references, refOk t.aliases ref

/-- `<plugin>.<name>`. -/
def WellFormed (kind : String) : Prop :=
  ∃ plugin name, kind.toList = plugin ++ '.' :: name ∧ isSegment plugin = true ∧
    isSegment name = true

/-- A declared alias, plus a `.<event>` suffix. -/
def NamesAlias (aliases : List String) (ref : String) : Prop :=
  ∃ aliasStr ∈ aliases, ∃ event, ref = aliasStr ++ "." ++ event ∧ event ≠ ""

/-- **The parser accepts what the rules allow, and nothing else.** -/
structure Conforms (content : Content) (given : Option Dependencies) : Prop where
  closed : ∀ t, parse content given = .ok t →
    ∃ parsed, content = .ok (.map parsed) ∧ Describes parsed given t ∧
      Closed WellFormed NamesAlias t
  accepts : ∀ parsed t, content = .ok (.map parsed) → Describes parsed given t →
    Closed WellFormed NamesAlias t → parse content given = .ok t

/-! ## What each entry is read as -/

theorem forall₂_and {A B : Type} {R : A → B → Prop} {P : B → Prop} {as : List A} {bs : List B} :
    List.Forall₂ (fun a b => R a b ∧ P b) as bs ↔ List.Forall₂ R as bs ∧ ∀ b ∈ bs, P b := by
  constructor
  · intro h
    induction h with
    | nil => exact ⟨.nil, by simp⟩
    | cons hab _ ih => exact ⟨.cons hab.1 ih.1, List.forall_mem_cons.mpr ⟨hab.2, ih.2⟩⟩
  · rintro ⟨h, hall⟩
    induction h with
    | nil => exact .nil
    | cons hab _ ih =>
      obtain ⟨hb, hall⟩ := List.forall_mem_cons.mp hall
      exact .cons ⟨hab, hb⟩ (ih hall)

theorem forall₂_str {vs : List Value} {names : List String} :
    List.Forall₂ (fun v name => v = .str name) vs names ↔ vs = names.map .str := by
  rw [← List.forall₂_eq_eq_eq, List.forall₂_map_right_iff]

variable {v : Value} {aliases : List String}

theorem textOr_eq_ok {reason : Reason} {s : String} :
    textOr reason v = .ok s ↔ v = .str s ∧ s ≠ "" := by
  rcases v with _ | _ | _ | _ | text | _ | _
  case str =>
    rw [textOr]
    by_cases h : text = ""
    · simp only [h, if_true, reduceCtorEq, false_iff, Value.str.injEq]
      rintro ⟨rfl, hne⟩
      exact hne rfl
    · rw [if_neg h, Except.ok.injEq, Value.str.injEq]
      exact ⟨fun he => ⟨he, he ▸ h⟩, fun he => he.1⟩
  all_goals simp [textOr]

theorem check_eq_ok {E A B : Type} {p : Bool} {e : E} {f : B → Except E A} {x : Except E A}
    {a : A} :
    (if (!p) = true then (throw e : Except E B) >>= f else x) = .ok a ↔ p = true ∧ x = .ok a := by
  by_cases hp : p = true
  · rw [hp, if_neg (by decide)]
    exact (and_iff_right rfl).symm
  · have hnot : (!p) = true := by simpa using hp
    rw [if_pos hnot]
    constructor
    · intro h
      cases h
    · rintro ⟨h, -⟩
      exact absurd h hp

theorem parseChannelEntry_eq_ok {c : Channel} :
    parseChannelEntry v = .ok c ↔ IsChannel v c ∧ wellFormedKind c.kind = true := by
  rcases v with _ | _ | _ | _ | _ | _ | entry
  case map =>
    simp only [parseChannelEntry, bind_eq_ok, textOr_eq_ok, check_eq_ok]
    constructor
    · rintro ⟨aliasStr, halias, kind, hkind, hok, h⟩
      split at h
      · rename_i config hconfig
        obtain rfl := Except.ok.inj h
        exact ⟨⟨entry, rfl, halias, hkind, hconfig⟩, hok⟩
      · cases h
    · rintro ⟨⟨_, ⟨⟩, halias, hkind, hconfig⟩, hok⟩
      refine ⟨c.aliasStr, halias, c.kind, hkind, hok, ?_⟩
      rw [hconfig]
      rfl
  all_goals simp [parseChannelEntry, IsChannel]

theorem validateConsumes_eq_ok {vs : List Value} {names : List String} :
    validateConsumes aliases vs = .ok names ↔
      (vs = names.map .str ∧ ∀ name ∈ names, name ≠ "") ∧ ∀ name ∈ names, name ∈ aliases := by
  rw [validateConsumes, mapM_eq_ok, ← forall₂_str, ← forall₂_and, ← forall₂_and]
  have hentry : ∀ (v : Value) (name : String), (do
      let text ← textOr (.consumesEntryInvalid v) v
      if text ∈ aliases then return text
      else throw (Reason.consumesUnknownAlias text) : Except Reason String) = .ok name ↔
      (v = .str name ∧ name ≠ "") ∧ name ∈ aliases := by
    intro v name
    simp only [bind_eq_ok, textOr_eq_ok]
    constructor
    · rintro ⟨text, htext, h⟩
      split at h
      · rename_i hmem
        obtain rfl := Except.ok.inj h
        exact ⟨htext, hmem⟩
      · cases h
    · rintro ⟨htext, hmem⟩
      refine ⟨name, htext, ?_⟩
      rw [if_pos hmem]
      rfl
  simp only [hentry]

theorem parseAgentEntry_eq_ok {a : Agent} :
    parseAgentEntry aliases v = .ok a ↔
      IsAgent v a ∧ wellFormedKind a.kind = true ∧ ∀ name ∈ a.consumes, name ∈ aliases := by
  rcases v with _ | _ | _ | _ | _ | _ | entry
  case map =>
    simp only [parseAgentEntry, bind_eq_ok, textOr_eq_ok, check_eq_ok]
    constructor
    · rintro ⟨kind, hkind, hok, name, hname, h⟩
      split at h
      · rename_i vs hvs
        obtain ⟨consumes, hconsumes, h⟩ := bind_eq_ok.mp h
        obtain rfl := Except.ok.inj h
        obtain ⟨⟨rfl, hnames⟩, hmem⟩ := validateConsumes_eq_ok.mp hconsumes
        exact ⟨⟨entry, rfl, hkind, hname, hvs, hnames⟩, hok, hmem⟩
      · cases h
    · rintro ⟨⟨_, ⟨⟩, hkind, hname, hconsumes, hnames⟩, hok, hmem⟩
      refine ⟨a.kind, hkind, hok, a.name, hname, ?_⟩
      rw [hconsumes]
      simp only [validateConsumes_eq_ok.mpr ⟨⟨rfl, hnames⟩, hmem⟩]
      rfl
  all_goals simp [parseAgentEntry, IsAgent]

theorem parsePipelineEntry_eq_ok {name : String} :
    parsePipelineEntry v = .ok name ↔ v = .str name ∧ IsStep name := by
  simp only [parsePipelineEntry, bind_eq_ok, textOr_eq_ok]
  constructor
  · rintro ⟨s, ⟨rfl, hne⟩, h⟩
    split at h
    · rename_i hstep
      obtain rfl := Except.ok.inj h
      exact ⟨rfl, hne, hstep⟩
    · cases h
  · rintro ⟨rfl, hne, hstep⟩
    refine ⟨name, ⟨rfl, hne⟩, ?_⟩
    rw [if_pos hstep]
    rfl

theorem parseInboundEntry_eq_ok {i : Inbound} :
    parseInboundEntry aliases v = .ok i ↔ IsInbound v i ∧ aliasKnown aliases i.source = true := by
  rcases v with _ | _ | _ | _ | _ | _ | entry
  case map =>
    simp only [parseInboundEntry, bind_eq_ok, textOr_eq_ok, check_eq_ok]
    constructor
    · rintro ⟨source, hsource, hok, h⟩
      split at h
      · rename_i vs hvs
        obtain ⟨pipeline, hpipeline, h⟩ := bind_eq_ok.mp h
        obtain rfl := Except.ok.inj h
        simp only [mapM_eq_ok, parsePipelineEntry_eq_ok, forall₂_and, forall₂_str] at hpipeline
        obtain ⟨rfl, hsteps⟩ := hpipeline
        exact ⟨⟨entry, rfl, hsource, hvs, hsteps⟩, hok⟩
      · cases h
    · rintro ⟨⟨_, ⟨⟩, hsource, hpipeline, hsteps⟩, hok⟩
      refine ⟨i.source, hsource, hok, ?_⟩
      have hread : (i.pipeline.map Value.str).mapM parsePipelineEntry = .ok i.pipeline := by
        simp only [mapM_eq_ok, parsePipelineEntry_eq_ok, forall₂_and, forall₂_str]
        exact ⟨trivial, hsteps⟩
      rw [hpipeline]
      simp only [hread]
      rfl
  all_goals simp [parseInboundEntry, IsInbound]

theorem parseOutboundEntry_eq_ok {o : Outbound} :
    parseOutboundEntry aliases v = .ok o ↔ IsOutbound v o ∧ aliasKnown aliases o.sink = true := by
  rcases v with _ | _ | _ | _ | _ | _ | entry
  case map =>
    simp only [parseOutboundEntry, bind_eq_ok, textOr_eq_ok]
    constructor
    · rintro ⟨source, hsource, sink, hsink, h⟩
      split at h
      · rename_i hok
        obtain rfl := Except.ok.inj h
        exact ⟨⟨entry, rfl, hsource, hsink⟩, hok⟩
      · cases h
    · rintro ⟨⟨_, ⟨⟩, hsource, hsink⟩, hok⟩
      refine ⟨o.source, hsource, o.sink, hsink, ?_⟩
      rw [if_pos hok]
      rfl
  all_goals simp [parseOutboundEntry, IsOutbound]

/-! ## What the whole document is read as -/

theorem lists_and {A : Type} {R : Value → A → Prop} {P : A → Prop} {as : List A} :
    Lists (fun v a => R v a ∧ P a) v as ↔ Lists R v as ∧ ∀ a ∈ as, P a := by
  simp only [Lists, forall₂_and]
  constructor
  · rintro ⟨entries, he, h, hall⟩
    exact ⟨⟨entries, he, h⟩, hall⟩
  · rintro ⟨⟨entries, he, h⟩, hall⟩
    exact ⟨entries, he, h, hall⟩

theorem list_eq_ok {A : Type} {f : Value → Except Reason (List A)} (g : Value → Except Reason A)
    (refuse : Value → Reason) {as : List A}
    (hlist : ∀ entries, f (.list entries) = entries.mapM g)
    (hother : ∀ v, (∀ entries, v ≠ .list entries) → f v = .error (refuse v)) :
    f (orElse (.list []) v) = .ok as ↔ Lists (fun v a => g v = .ok a) v as := by
  constructor
  · intro h
    by_cases hv : ∃ entries, orElse (.list []) v = .list entries
    · obtain ⟨entries, hv⟩ := hv
      rw [hv, hlist, mapM_eq_ok] at h
      exact ⟨entries, hv, h⟩
    · rw [hother _ fun entries he => hv ⟨entries, he⟩] at h
      cases h
  · rintro ⟨entries, hv, h⟩
    rw [hv, hlist, mapM_eq_ok]
    exact h

theorem parseChannels_eq_ok {cs : List Channel} :
    parseChannels (orElse (.list []) v) = .ok cs ↔
      Lists IsChannel v cs ∧ ∀ c ∈ cs, wellFormedKind c.kind = true := by
  rw [list_eq_ok parseChannelEntry .channelsNotAList (fun entries => rfl), ← lists_and]
  · simp only [parseChannelEntry_eq_ok]
  · rintro v hv
    rw [parseChannels]
    exact hv

theorem parseAgents_eq_ok {as : List Agent} :
    parseAgents aliases (orElse (.list []) v) = .ok as ↔
      Lists IsAgent v as ∧
        ∀ a ∈ as, wellFormedKind a.kind = true ∧ ∀ name ∈ a.consumes, name ∈ aliases := by
  rw [list_eq_ok (parseAgentEntry aliases) .agentsNotAList (fun entries => rfl), ← lists_and]
  · simp only [parseAgentEntry_eq_ok]
  · rintro v hv
    rw [parseAgents]
    exact hv

theorem parseInbound_eq_ok {is : List Inbound} :
    parseInbound aliases (orElse (.list []) v) = .ok is ↔
      Lists IsInbound v is ∧ ∀ i ∈ is, aliasKnown aliases i.source = true := by
  rw [list_eq_ok (parseInboundEntry aliases) .flowInboundNotAList (fun entries => rfl),
    ← lists_and]
  · simp only [parseInboundEntry_eq_ok]
  · rintro v hv
    rw [parseInbound]
    exact hv

theorem parseOutbound_eq_ok {os : List Outbound} :
    parseOutbound aliases (orElse (.list []) v) = .ok os ↔
      Lists IsOutbound v os ∧ ∀ o ∈ os, aliasKnown aliases o.sink = true := by
  rw [list_eq_ok (parseOutboundEntry aliases) .flowOutboundNotAList (fun entries => rfl),
    ← lists_and]
  · simp only [parseOutboundEntry_eq_ok]
  · rintro v hv
    rw [parseOutbound]
    exact hv

theorem parseFlow_eq_ok {is : List Inbound} {os : List Outbound} :
    parseFlow aliases v = .ok (is, os) ↔ ∃ flow, v = .map flow ∧
      (Lists IsInbound (field "inbound" flow) is ∧
        ∀ i ∈ is, aliasKnown aliases i.source = true) ∧
      Lists IsOutbound (field "outbound" flow) os ∧
        ∀ o ∈ os, aliasKnown aliases o.sink = true := by
  rcases v with _ | _ | _ | _ | _ | _ | flow
  case map =>
    simp only [parseFlow, bind_eq_ok, parseInbound_eq_ok, parseOutbound_eq_ok]
    constructor
    · rintro ⟨is', his, os', hos, he⟩
      obtain ⟨rfl, rfl⟩ := Prod.mk.inj (Except.ok.inj he)
      exact ⟨flow, rfl, his, hos⟩
    · rintro ⟨_, ⟨⟩, his, hos⟩
      exact ⟨is, his, os, hos, rfl⟩
  all_goals simp [parseFlow]

theorem checkUniqueAliases_eq_ok {cs : List Channel} {u : Unit} :
    checkUniqueAliases cs = .ok u ↔ (cs.map Channel.aliasStr).Nodup := by
  have hnil : ((cs.map Channel.aliasStr).filter fun a =>
      1 < (cs.map Channel.aliasStr).count a).insertionSort (· ≤ ·) = [] ↔
      (cs.map Channel.aliasStr).Nodup := by
    rw [List.nodup_iff_count_le_one, ← List.length_eq_zero_iff, List.length_insertionSort,
      List.length_eq_zero_iff, List.filter_eq_nil_iff]
    constructor
    · intro h a
      by_cases ha : a ∈ cs.map Channel.aliasStr
      · have hcount := h a ha
        rw [decide_eq_true_eq] at hcount
        omega
      · rw [List.count_eq_zero.mpr ha]
        omega
    · intro h a ha
      rw [decide_eq_true_eq]
      have hcount := h a
      omega
  rw [← hnil, checkUniqueAliases]
  constructor
  · intro h
    split at h
    · assumption
    · cases h
  · intro h
    simp only [h]

theorem fetchSchemaVersion_eq_ok {parsed : Entries} :
    fetchSchemaVersion parsed = .ok v ↔ get "schema_version" parsed = some v ∧ isOne v = true := by
  rw [fetchSchemaVersion]
  constructor
  · intro h
    split at h
    · rename_i v' hv
      by_cases hone : isOne v' = true
      · rw [if_pos hone] at h
        obtain rfl := Except.ok.inj h
        exact ⟨hv, hone⟩
      · rw [if_neg hone] at h
        cases h
    · cases h
  · rintro ⟨hv, hone⟩
    simp only [hv, hone, if_true]

theorem readYaml_eq_ok {content : Content} {parsed : Entries} :
    readYaml content = .ok parsed ↔ content = .ok (.map parsed) := by
  rcases content with reason | (_ | _ | _ | _ | _ | _ | entries)
  case ok.map =>
    rw [readYaml, Except.ok.injEq, Except.ok.injEq, Value.map.injEq]
  all_goals simp [readYaml]

/-- **What the parser accepts.**  The templates of a document whose kinds it takes for well
formed, and whose references begin, up to the first dot, with a declared alias. -/
theorem parse_iff {content : Content} {given : Option Dependencies} {t : Template} :
    parse content given = .ok t ↔ ∃ parsed, content = .ok (.map parsed) ∧
      Describes parsed given t ∧
      Closed (wellFormedKind · = true) (aliasKnown · · = true) t := by
  simp only [parse, parseRaw, bind_eq_ok, readYaml_eq_ok, fetchSchemaVersion_eq_ok,
    parseChannels_eq_ok, checkUniqueAliases_eq_ok, parseAgents_eq_ok]
  refine exists_congr fun parsed => and_congr_right fun _ => ?_
  constructor
  · rintro ⟨version, hversion, dependencies, hdeps, channels, ⟨hchannels, hckinds⟩, -, hunique,
      agents, ⟨hagents, hakinds⟩, ⟨inbound, outbound⟩, hflow, he⟩
    obtain rfl := Except.ok.inj he
    obtain ⟨flow, hmap, ⟨hinbound, hsources⟩, houtbound, hsinks⟩ := parseFlow_eq_ok.mp hflow
    constructor
    · exact ⟨hversion, rfl, rfl, hdeps, hchannels, hagents, flow, hmap, hinbound, houtbound⟩
    · refine ⟨hunique, ?_, fun a ha => (hakinds a ha).2, ?_⟩
      · intro kind hkind
        rcases List.mem_append.mp hkind with h | h
        · obtain ⟨c, hc, rfl⟩ := List.mem_map.mp h
          exact hckinds c hc
        · obtain ⟨a, ha, rfl⟩ := List.mem_map.mp h
          exact (hakinds a ha).1
      · intro ref href
        rcases List.mem_append.mp href with h | h
        · obtain ⟨i, hi, rfl⟩ := List.mem_map.mp h
          exact hsources i hi
        · obtain ⟨o, ho, rfl⟩ := List.mem_map.mp h
          exact hsinks o ho
  · rintro ⟨hd, hc⟩
    have hchannel : ∀ c ∈ t.channels, wellFormedKind c.kind = true := fun c h =>
      hc.kinds _ (List.mem_append_left _ (List.mem_map_of_mem h))
    have hagent : ∀ a ∈ t.agents, wellFormedKind a.kind = true := fun a h =>
      hc.kinds _ (List.mem_append_right _ (List.mem_map_of_mem h))
    have hsource : ∀ i ∈ t.inbound, aliasKnown t.aliases i.source = true := fun i h =>
      hc.references _ (List.mem_append_left _ (List.mem_map_of_mem h))
    have hsink : ∀ o ∈ t.outbound, aliasKnown t.aliases o.sink = true := fun o h =>
      hc.references _ (List.mem_append_right _ (List.mem_map_of_mem h))
    obtain ⟨flow, hmap, hinbound, houtbound⟩ := hd.flow
    refine ⟨t.schemaVersion, hd.version, t.dependencies, hd.dependencies, t.channels,
      ⟨hd.channels, hchannel⟩, (), hc.unique, t.agents,
      ⟨hd.agents, fun a h => ⟨hagent a h, hc.consumes a h⟩⟩, (t.inbound, t.outbound), ?_, ?_⟩
    · exact parseFlow_eq_ok.mpr ⟨flow, hmap, ⟨hinbound, hsource⟩, houtbound, hsink⟩
    · rw [← hd.name, ← hd.description]
      rfl

/-! ## Where the parser and the rules agree -/

theorem not_newline_of_isSegment {cs : List Char} (h : isSegment cs = true) : '\n' ∉ cs := by
  rcases cs with _ | ⟨c, cs⟩
  · exact List.not_mem_nil
  · simp only [isSegment, Bool.and_eq_true, List.all_eq_true] at h
    intro hmem
    rcases List.mem_cons.mp hmem with rfl | hmem
    · exact absurd h.1 (by decide)
    · exact absurd (h.2 _ hmem) (by decide)

theorem not_dot_of_isSegment {cs : List Char} (h : isSegment cs = true) : '.' ∉ cs := by
  rcases cs with _ | ⟨c, cs⟩
  · exact List.not_mem_nil
  · simp only [isSegment, Bool.and_eq_true, List.all_eq_true] at h
    intro hmem
    rcases List.mem_cons.mp hmem with rfl | hmem
    · exact absurd h.1 (by decide)
    · exact absurd (h.2 _ hmem) (by decide)

theorem wellFormed_iff {kind : String} :
    WellFormed kind ↔ wellFormedKind kind = true ∧ kind.toList.getLast? ≠ some '\n' := by
  constructor
  · rintro ⟨plugin, name, hkind, hplugin, hname⟩
    have hlast : kind.toList.getLast? ≠ some '\n' := by
      intro hlast
      have hmem := List.mem_of_getLast? hlast
      rw [hkind, List.mem_append, List.mem_cons] at hmem
      rcases hmem with h | h | h
      · exact not_newline_of_isSegment hplugin h
      · exact absurd h (by decide)
      · exact not_newline_of_isSegment hname h
    have hcut : cutAt '.' (chompNewline kind.toList) = some (plugin, name) := by
      rw [chompNewline, if_neg hlast, cutAt_eq_some]
      exact ⟨hkind, not_dot_of_isSegment hplugin⟩
    refine ⟨?_, hlast⟩
    rw [wellFormedKind, hcut]
    simp only [hplugin, hname, Bool.and_self]
  · rintro ⟨h, hlast⟩
    rw [wellFormedKind, chompNewline, if_neg hlast] at h
    split at h
    · rename_i plugin name hcut
      rw [Bool.and_eq_true] at h
      exact ⟨plugin, name, (cutAt_eq_some.mp hcut).1, h⟩
    · cases h

theorem namesAlias_of_aliasKnown {ref : String} (h : aliasKnown aliases ref = true) :
    NamesAlias aliases ref := by
  rw [aliasKnown] at h
  split at h
  · rename_i aliasStr event hsplit
    rw [Bool.and_eq_true, decide_eq_true_eq, decide_eq_true_eq] at h
    exact ⟨aliasStr, h.2, event, (splitParts2_eq_pair.mp hsplit).1, h.1⟩
  · cases h

/-- **When the parser conforms to the rules.**  On a document that follows them up to a
line break at the end of a kind: some kind has one exactly when some reference does not
begin, up to its first dot, with a declared alias. -/
theorem conforms_iff (content : Content) (given : Option Dependencies) :
    Conforms content given ↔ ∀ parsed t, content = .ok (.map parsed) →
      Describes parsed given t → Closed (wellFormedKind · = true) NamesAlias t →
      ((∀ ref ∈ t.references, aliasKnown t.aliases ref = true) ↔
        ∀ kind ∈ t.kinds, kind.toList.getLast? ≠ some '\n') := by
  constructor
  · intro hconf parsed t hcontent hd hc
    constructor
    · intro href kind hkind
      have hparse := parse_iff.mpr ⟨parsed, hcontent, hd, { hc with references := href }⟩
      obtain ⟨-, -, -, hclosed⟩ := hconf.closed t hparse
      exact (wellFormed_iff.mp (hclosed.kinds kind hkind)).2
    · intro hlast
      have hkinds : ∀ kind ∈ t.kinds, WellFormed kind := fun kind hkind =>
        wellFormed_iff.mpr ⟨hc.kinds kind hkind, hlast kind hkind⟩
      have hparse := hconf.accepts parsed t hcontent hd { hc with kinds := hkinds }
      obtain ⟨-, -, -, hclosed⟩ := parse_iff.mp hparse
      exact hclosed.references
  · intro h
    constructor
    · intro t hparse
      obtain ⟨parsed, hcontent, hd, hc⟩ := parse_iff.mp hparse
      have hrefs : ∀ ref ∈ t.references, NamesAlias t.aliases ref := fun ref href =>
        namesAlias_of_aliasKnown (hc.references ref href)
      have hlast := (h parsed t hcontent hd { hc with references := hrefs }).mp hc.references
      refine ⟨parsed, hcontent, hd, { hc with kinds := ?_, references := hrefs }⟩
      exact fun kind hkind => wellFormed_iff.mpr ⟨hc.kinds kind hkind, hlast kind hkind⟩
    · intro parsed t hcontent hd hc
      have hkinds : ∀ kind ∈ t.kinds, wellFormedKind kind = true := fun kind hkind =>
        (wellFormed_iff.mp (hc.kinds kind hkind)).1
      have hlast : ∀ kind ∈ t.kinds, kind.toList.getLast? ≠ some '\n' := fun kind hkind =>
        (wellFormed_iff.mp (hc.kinds kind hkind)).2
      have hknown := (h parsed t hcontent hd { hc with kinds := hkinds }).mpr hlast
      exact parse_iff.mpr ⟨parsed, hcontent, hd, { hc with kinds := hkinds, references := hknown }⟩

/-- A template whose only channel has a dot in its alias. -/
def dotted : Template where
  schemaVersion := .int 1
  name := .str "chat"
  description := .str ""
  dependencies := ⟨[], []⟩
  channels := [⟨"in.a", "feishu.chat", []⟩]
  agents := []
  inbound := [⟨"in.a.text", []⟩]
  outbound := []

/-- The text of `dotted`. -/
def dottedEntries : Entries :=
  [(.str "schema_version", .int 1), (.str "name", .str "chat"),
    (.str "channels",
      .list [.map [(.str "alias", .str "in.a"), (.str "kind", .str "feishu.chat")]]),
    (.str "flow", .map [(.str "inbound", .list [.map [(.str "source", .str "in.a.text")]])])]

/-- The parser looks for the alias `in`. -/
theorem not_conforms_dotted : ¬ Conforms (.ok (.map dottedEntries)) none := by
  intro hconf
  have hd : Describes dottedEntries none dotted := by
    refine ⟨by decide, rfl, rfl, rfl, ⟨_, rfl, ?_⟩, ⟨_, rfl, .nil⟩, _, rfl, ⟨_, rfl, ?_⟩,
      _, rfl, .nil⟩
    · exact .cons ⟨_, rfl, by decide, by decide, rfl⟩ .nil
    · exact .cons ⟨_, rfl, by decide, rfl, by simp⟩ .nil
  have hc : Closed WellFormed NamesAlias dotted := by
    refine ⟨by decide, ?_, by decide, ?_⟩
    · intro kind hkind
      rw [List.mem_singleton.mp hkind]
      exact ⟨"feishu".toList, "chat".toList, by decide, by decide, by decide⟩
    · intro ref href
      rw [List.mem_singleton.mp href]
      exact ⟨"in.a", by decide, "text", by decide, by decide⟩
  obtain ⟨-, -, -, hclosed⟩ := parse_iff.mp (hconf.accepts dottedEntries dotted rfl hd hc)
  exact absurd (hclosed.references "in.a.text" (by decide)) (by decide)

end SessionTemplate
end Esr
