import TcpUdpProxy.ConfigurationGrammar
import TcpUdpProxy.UdpRules

namespace TcpUdpProxy.SharedData

def udpLine (cfg : Config) (line : Line) : Option UdpProxyRule :=
  if skipped (trim line) then none
  else
    match meaning cfg.fromString (tokens line) with
    | some (.udp rule) => some rule
    | _ => none

/-- The rule that a line adds, be its form the documented one or not. -/
def addedRule (cfg : Config) (line : Line) : Option UdpProxyRule :=
  if skipped (trim line) then none else (readLine cfg (trim line) blank .empty).2.1.udpRules.head?

/-- The rules of the documented `udp` lines that ask for a port to listen on. -/
def serverRules (cfg : Config) (lines : List Line) : List UdpProxyRule :=
  (lines.filterMap (udpLine cfg)).filter fun rule => rule.srcPort ≠ 0

variable {cfg : Config} {line : Line} {lines : List Line} {vars : Vars} {rules : Rules}

theorem udpRules_startTcp (rule : TcpProxyRule) : (rules.startTcp cfg rule).1.udpRules = rules.udpRules := by
  unfold Rules.startTcp
  split <;> rfl

theorem udpRules_readLine (cfg : Config) (line : Line) (vars : Vars) : ∃ rule : Option UdpProxyRule,
    ∀ rules, (readLine cfg line vars rules).2.1.udpRules = rules.udpRules ++ rule.toList := by
  unfold readLine
  dsimp only
  split
  · exact ⟨none, fun rules => (List.append_nil _).symm⟩
  · split
    · exact ⟨none, fun rules => (List.append_nil _).symm⟩
    · split
      · refine ⟨none, fun rules => ?_⟩
        rw [Option.toList_none, List.append_nil]
        cases (readEndpoint cfg _ _).2 with
        | none => rfl
        | some is => exact udpRules_startTcp _
      · split
        · cases (readEndpoint cfg _ _).2 with
          | none => exact ⟨none, fun rules => (List.append_nil _).symm⟩
          | some is => exact ⟨some _, fun rules => rfl⟩
        · exact ⟨none, fun rules => (List.append_nil _).symm⟩

theorem udpRules_handleLine (cfg : Config) (s : State) (line : Line) :
    (handleLine cfg s line).rules.udpRules = s.rules.udpRules ++ (addedRule cfg line).toList := by
  unfold handleLine addedRule
  by_cases hskipped : skipped (trim line)
  · simp [hskipped]
  · obtain ⟨rule, hrule⟩ := udpRules_readLine cfg (trim line) blank
    rw [if_neg hskipped, if_neg hskipped]
    change (readLine cfg (trim line) s.vars s.rules).2.1.udpRules = _
    rw [readLine_vars cfg _ s.vars blank, hrule, hrule]
    cases rule <;> rfl

theorem udpRules_init (cfg : Config) (vars : Vars) (lines : List Line) :
    (init cfg vars lines).udpRules = lines.filterMap (addedRule cfg) := by
  change (run cfg vars lines).rules.udpRules = _
  induction lines using List.reverseRecOn with
  | nil => rfl
  | append_singleton lines line ih =>
    rw [run_concat, udpRules_handleLine, ih, List.filterMap_append]
    cases hadded : addedRule cfg line <;> simp [hadded]

end TcpUdpProxy.SharedData

namespace TcpUdpProxy.UdpServer

open UdpEndpointProxy Execution LastWrite

def boundPort (e : UdpEndpointProxy) : Option ℕ :=
  if e.proxySocket.isOpen then some e.proxyRule.srcPort else none

/-- What happens while the configuration is read; no handler runs before the pool is started. -/
def Loads : Event → Prop
  | .addServerProxy _ outcome => outcome = .success
  | .clock _ => True
  | .ip _ => True
  | _ => False

def Serves (w : World) (rule : UdpProxyRule) (id : EptId) : Prop :=
  (∃ key, w.endpoints.lookup key = some id) ∧ ∃ e, w.epts id = some e ∧
    e.serverFlag = true ∧ boundPort e = some rule.srcPort ∧ e.proxyRule = rule

def NoneLost (rules : List UdpProxyRule) (w : World) : Prop :=
  ∃ own : ℕ → EptId, (∀ i rule, rules[i]? = some rule → Serves w rule (own i)) ∧
    ∀ i j, i < rules.length → j < rules.length → own i = own j → i = j

def held (e : UdpEndpointProxy) : UdpProxyRule × Bool × Bool :=
  (e.proxyRule, e.serverFlag, e.proxySocket.isOpen)

structure Loaded (w : World) (rules : List UdpProxyRule) : Prop where
  keyed : Keyed w
  setup : w.phase = .setup
  table : ∀ key, ((w.endpoints.lookup key).bind w.epts).map held =
    (lastRule rules key).map fun rule => (rule, decide (rule.srcPort ≠ 0), true)

variable {cfg : Config} {w w' w₀ : World} {ev : Event} {es : List Event} {rules : List UdpProxyRule}

theorem lastRule_concat (rules : List UdpProxyRule) (rule : UdpProxyRule) (key : Endpoint) :
    lastRule (rules ++ [rule]) key = if rule.dstEndpoint = key then some rule else lastRule rules key := by
  unfold lastRule
  rw [final_concat]
  split <;> rfl

theorem held_create (rule : UdpProxyRule) (buf : BufId) (now : Msec) :
    held (create (fun _ => 0) rule buf .success now) = (rule, decide (rule.srcPort ≠ 0), true) := rfl

theorem loaded_added {rule : UdpProxyRule} (hw : Loaded w rules) :
    Loaded (w.addServerProxy rule .success) (rules ++ [rule]) := by
  refine ⟨keyed_addServerProxy hw.keyed hw.setup, ?_, ?_⟩
  · obtain ⟨epts, heq⟩ := addServerProxy_eq rule .success w
    rw [heq]
    exact hw.setup
  · intro key
    have hendpoints : (w.addServerProxy rule .success).endpoints =
        w.endpoints.insert rule.dstEndpoint w.nextEpt := rfl
    rw [hendpoints, lastRule_concat]
    by_cases hkey : rule.dstEndpoint = key
    · subst hkey
      rw [if_pos rfl, AList.lookup_insert, Option.bind_some, epts_addServerProxy_new, Option.map_some,
        Option.map_some, held_create]
    · rw [if_neg hkey, AList.lookup_insert_ne (Ne.symm hkey), ← hw.table key]
      cases hlookup : w.endpoints.lookup key with
      | none => rfl
      | some id =>
        have hnew : id ≠ w.nextEpt := by
          rintro rfl
          exact hw.keyed.mapped.lookup_ne (hw.keyed.fresh _ le_rfl) key hlookup
        have hold : w.endpoints.lookup rule.dstEndpoint ≠ some id := by
          intro hold
          exact hkey (hw.keyed.mapped.unique hw.keyed.mapped hold hlookup)
        rw [Option.bind_some, Option.bind_some, epts_addServerProxy_other rule .success hnew hold]

theorem loaded_step (hw : Loaded w rules) (hev : Loads ev) (h : step cfg w ev = some w') :
    Loaded w' (rules ++ configured w ev) := by
  have hk := keyed_step hw.keyed (step_cases h)
  cases ev with
  | addServerProxy rule outcome =>
    cases hev
    cases step_cases h with
    | addServerProxy => exact loaded_added hw
  | clock now =>
    cases step_cases h with
    | clock =>
      rw [show configured w _ = [] from rfl, List.append_nil]
      exact ⟨hk, hw.setup, hw.table⟩
  | ip ip =>
    cases step_cases h with
    | ip =>
      rw [show configured w _ = [] from rfl, List.append_nil]
      exact ⟨hk, hw.setup, hw.table⟩
  | _ => exact absurd hev id

theorem loaded_run (h₀ : Initial w₀) (h : exec (step cfg) w₀ es = some w) (hes : ∀ ev ∈ es, Loads ev) :
    Loaded w (trace (step cfg) configured w₀ es) := by
  have hstart : Loaded w₀ [] := by
    have hk := keyed_initial h₀
    obtain ⟨clock, ip, heap, rfl⟩ := h₀
    exact ⟨hk, rfl, fun key => rfl⟩
  have hrun := exec_traced (fun u ev v rules hw hev hstep => loaded_step hw hev hstep) h
    (along_of_mem hes w₀) hstart
  rwa [List.nil_append] at hrun

theorem lookup_served (hw : Loaded w rules) {rule : UdpProxyRule} {id : EptId} (h : Serves w rule id) :
    w.endpoints.lookup rule.dstEndpoint = some id ∧ lastRule rules rule.dstEndpoint = some rule := by
  obtain ⟨⟨key, hlookup⟩, e, he, -, -, hrule⟩ := h
  obtain ⟨e', he', hdst⟩ := hw.keyed.mapped key id hlookup
  rw [he] at he'
  cases he'
  rw [hrule] at hdst
  subst hdst
  refine ⟨hlookup, ?_⟩
  have htable := hw.table rule.dstEndpoint
  rw [hlookup, Option.bind_some, he, Option.map_some] at htable
  obtain ⟨r, hr, hheld⟩ := Option.map_eq_some_iff.mp htable.symm
  rw [hr, ← hrule]
  exact congrArg (fun t => some t.1) hheld

theorem serves_of_last (hw : Loaded w rules) {rule : UdpProxyRule} (hport : rule.srcPort ≠ 0)
    (hlast : lastRule rules rule.dstEndpoint = some rule) : ∃ id, Serves w rule id := by
  have htable := hw.table rule.dstEndpoint
  rw [hlast, Option.map_some] at htable
  obtain ⟨e, hbind, hheld⟩ := Option.map_eq_some_iff.mp htable
  obtain ⟨id, hlookup, he⟩ := Option.bind_eq_some_iff.mp hbind
  simp only [held, Prod.mk.injEq] at hheld
  obtain ⟨hrule, hflag, hopen⟩ := hheld
  refine ⟨id, ⟨_, hlookup⟩, e, he, ?_, ?_, hrule⟩
  · rw [hflag]
    simpa using hport
  · rw [boundPort, if_pos hopen, hrule]

theorem Serves.rule_eq {rule rule' : UdpProxyRule} {id : EptId} (h : Serves w rule id)
    (h' : Serves w rule' id) : rule = rule' := by
  obtain ⟨-, e, he, -, -, hrule⟩ := h
  obtain ⟨-, e', he', -, -, hrule'⟩ := h'
  rw [he] at he'
  cases he'
  exact hrule.symm.trans hrule'

theorem noneLost_of_serves {served : List UdpProxyRule} (hnodup : served.Nodup)
    (h : ∀ rule ∈ served, ∃ id, Serves w rule id) : NoneLost served w := by
  have hserved : ∀ i : ℕ, ∃ id, ∀ rule, served[i]? = some rule → Serves w rule id := by
    intro i
    cases hrule : served[i]? with
    | none => exact ⟨0, by simp⟩
    | some rule =>
      obtain ⟨id, hid⟩ := h rule (List.mem_of_getElem? hrule)
      exact ⟨id, fun r hr => Option.some.inj hr ▸ hid⟩
  choose own hown using hserved
  refine ⟨own, hown, ?_⟩
  intro i j hi hj heq
  have hi' := List.getElem?_eq_getElem hi
  have hj' := List.getElem?_eq_getElem hj
  have hsame := hown j _ hj'
  rw [← heq] at hsame
  apply (List.getElem?_inj hi hnodup).mp
  rw [hi', hj', (hown i _ hi').rule_eq hsame]

theorem rules_served {cfg : Config} {w₀ w : World} {es : List Event} {conf : SharedData.Config}
    {vars : SharedData.Vars} {lines : List SharedData.Line} (h₀ : Initial w₀)
    (h : exec (step cfg) w₀ es = some w) (hes : ∀ ev ∈ es, Loads ev)
    (hconf : trace (step cfg) configured w₀ es = (SharedData.init conf vars lines).udpRules)
    (hports : ((SharedData.serverRules conf lines).map UdpProxyRule.srcPort).Nodup) :
    NoneLost (SharedData.serverRules conf lines) w ↔ ∀ rule ∈ SharedData.serverRules conf lines,
      lastRule (lines.filterMap (SharedData.addedRule conf)) rule.dstEndpoint = some rule := by
  have hw := loaded_run h₀ h hes
  rw [hconf, SharedData.udpRules_init] at hw
  constructor
  · rintro ⟨own, hown, -⟩ rule hrule
    obtain ⟨i, hi⟩ := List.mem_iff_getElem?.mp hrule
    exact (lookup_served hw (hown i rule hi)).2
  · intro hlast
    apply noneLost_of_serves (List.Nodup.of_map _ hports)
    intro rule hrule
    have hport : rule.srcPort ≠ 0 := by simpa using (List.mem_filter.mp hrule).2
    exact serves_of_last hw hport (hlast rule hrule)

/-- `udp 1 10.0.0.1 9`, with the digits of the two ports. -/
def ruleLine (srcPort dstPort : Char) : SharedData.Line :=
  ['u', 'd', 'p', ' ', srcPort, ' '] ++ SharedData.addressText ++ [' ', dstPort]

def firstAdded : List Event := [.addServerProxy ⟨1, ⟨1, 9⟩, 0, 0, 0⟩ .success]

def bothAdded (dstPort : ℕ) : List Event :=
  firstAdded ++ [.clock 6, .addServerProxy ⟨2, ⟨1, dstPort⟩, 0, 0, 0⟩ .success]

theorem loads_bothAdded (dstPort : ℕ) : ∀ ev ∈ bothAdded dstPort, Loads ev := by
  intro ev hev
  simp only [bothAdded, firstAdded, List.cons_append, List.nil_append, List.mem_cons, List.not_mem_nil,
    or_false] at hev
  rcases hev with rfl | rfl | rfl
  · exact rfl
  · trivial
  · exact rfl

theorem rules_served_both :
    NoneLost (SharedData.serverRules SharedData.resolving [ruleLine '1' '9', ruleLine '2' '8'])
      (after plain start (bothAdded 8)) := by
  have hexec : exec (step plain) start (bothAdded 8) = some (after plain start (bothAdded 8)) := rfl
  have hconf : trace (step plain) configured start (bothAdded 8) =
      (SharedData.init SharedData.resolving SharedData.blank [ruleLine '1' '9', ruleLine '2' '8']).udpRules := by
    decide
  exact (rules_served initial_start hexec (loads_bothAdded 8) hconf (by decide)).mpr (by decide)

theorem shared_remote_loses_rule : ¬ ∀ (cfg : Config) (w₀ w : World) (es : List Event)
    (conf : SharedData.Config) (vars : SharedData.Vars) (lines : List SharedData.Line), Initial w₀ →
    exec (step cfg) w₀ es = some w → (∀ ev ∈ es, Loads ev) →
    trace (step cfg) configured w₀ es = (SharedData.init conf vars lines).udpRules →
    ((SharedData.serverRules conf lines).map UdpProxyRule.srcPort).Nodup →
      NoneLost (SharedData.serverRules conf lines) w := by
  intro hclaim
  have hexec : exec (step plain) start (bothAdded 9) = some (after plain start (bothAdded 9)) := rfl
  have hconf : trace (step plain) configured start (bothAdded 9) =
      (SharedData.init SharedData.resolving SharedData.blank [ruleLine '1' '9', ruleLine '2' '9']).udpRules := by
    decide
  obtain ⟨own, hown, -⟩ := hclaim plain start _ (bothAdded 9) SharedData.resolving SharedData.blank
    [ruleLine '1' '9', ruleLine '2' '9'] initial_start hexec (loads_bothAdded 9) hconf (by decide)
  have hserves := hown 0 ⟨1, ⟨1, 9⟩, 0, 0, 0⟩ rfl
  have hlast := (lookup_served (loaded_run initial_start hexec (loads_bothAdded 9)) hserves).2
  revert hlast
  decide

end TcpUdpProxy.UdpServer
