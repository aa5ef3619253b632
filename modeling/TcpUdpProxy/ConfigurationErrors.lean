import TcpUdpProxy.SharedData

namespace TcpUdpProxy.SharedData

open LastWrite

variable {cfg : Config} {is : Stream} {line : Line} {vars vars' : Vars} {rules rules' : Rules}

theorem number_stored (is : Stream) {α : Type} {zero : α} {convert : Bool → ℕ → α × Bool}
    (h : (is.number cfg zero convert).1.failed = false) : ∃ x, (is.number cfg zero convert).2 = some x := by
  unfold Stream.number at h ⊢
  split
  · simp_all
  · split
    · simp_all
    · dsimp only
      split
      · exact ⟨_, rfl⟩
      · exact ⟨_, rfl⟩

theorem word_stored (is : Stream) (h : is.word.1.failed = false) : ∃ x, is.word.2 = some x := by
  unfold Stream.word at h ⊢
  split
  · simp_all
  · split
    · simp_all
    · exact ⟨_, rfl⟩

theorem readEndpoint_vars (cfg : Config) (is : Stream) (vars vars' : Vars) :
    (readEndpoint cfg is vars).2 = (readEndpoint cfg is vars').2 ∧
    ((readEndpoint cfg is vars).2.isSome →
      (readEndpoint cfg is vars).1.srcPort = (readEndpoint cfg is vars').1.srcPort ∧
      (readEndpoint cfg is vars).1.ipAddr = (readEndpoint cfg is vars').1.ipAddr ∧
      (readEndpoint cfg is vars).1.dstPort = (readEndpoint cfg is vars').1.dstPort) := by
  unfold readEndpoint
  dsimp only
  by_cases hport : (is.uint16 cfg).1.failed
  · simp [hport]
  · obtain ⟨port, hport'⟩ := number_stored is (by simpa [Stream.uint16] using hport)
    simp only [hport, Bool.false_eq_true, if_false]
    by_cases hword : (is.uint16 cfg).1.word.1.failed
    · simp [hword]
    · obtain ⟨dstIp, hdstIp⟩ := word_stored (is.uint16 cfg).1 (by simpa using hword)
      simp only [hword, hdstIp, Bool.false_eq_true, if_false, Option.getD_some]
      cases cfg.fromString dstIp with
      | none => simp
      | some a =>
        dsimp only
        by_cases hlast : ((is.uint16 cfg).1.word.1.uint16 cfg).1.failed
        · simp [hlast]
        · obtain ⟨dstPort, hdstPort⟩ := number_stored (is.uint16 cfg).1.word.1
            (by simpa [Stream.uint16] using hlast)
          simp only [Stream.uint16] at hport' hdstPort hlast ⊢
          simp [hport', hdstPort, hlast]

theorem readIp_outcome (cfg : Config) (is : Stream) (vars vars' : Vars) :
    (readIp cfg is vars).2 = (readIp cfg is vars').2 := by
  unfold readIp
  dsimp only
  split
  · rfl
  · rfl

theorem tcpRule_congr (h : vars.srcPort = vars'.srcPort ∧ vars.ipAddr = vars'.ipAddr ∧
    vars.dstPort = vars'.dstPort) : tcpRule cfg is vars = tcpRule cfg is vars' := by
  simp [tcpRule, h]

theorem udpRule_congr (h : vars.srcPort = vars'.srcPort ∧ vars.ipAddr = vars'.ipAddr ∧
    vars.dstPort = vars'.dstPort) : udpRule cfg is vars = udpRule cfg is vars' := by
  simp [udpRule, h]

theorem readEndpoint_elim {β : Type} (rejected : β) (accepted : Vars → Stream → β) (vars vars' : Vars)
    (h : ∀ is v v', v.srcPort = v'.srcPort ∧ v.ipAddr = v'.ipAddr ∧ v.dstPort = v'.dstPort →
      accepted v is = accepted v' is) :
    (readEndpoint cfg is vars).2.elim rejected (accepted (readEndpoint cfg is vars).1) =
      (readEndpoint cfg is vars').2.elim rejected (accepted (readEndpoint cfg is vars').1) := by
  obtain ⟨hstream, hsame⟩ := readEndpoint_vars cfg is vars vars'
  rw [← hstream]
  cases hread : (readEndpoint cfg is vars).2 with
  | none => rfl
  | some is' => exact h is' _ _ (hsame (by simp [hread]))

theorem readLine_vars (cfg : Config) (line : Line) (vars vars' : Vars) (rules : Rules) :
    (readLine cfg line vars rules).2 = (readLine cfg line vars' rules).2 := by
  unfold readLine
  dsimp only
  by_cases hword : (Stream.word ⟨line, false⟩).1.failed
  · simp [hword]
  obtain ⟨proto, hproto⟩ := word_stored ⟨line, false⟩ (by simpa using hword)
  simp only [hword, hproto, Bool.false_eq_true, if_false, Option.getD_some]
  split
  · rw [readIp_outcome]
  · split
    · apply readEndpoint_elim (_, _) fun vars is => rules.startTcp cfg (tcpRule cfg is vars)
      intro is v v' hfields
      rw [tcpRule_congr hfields]
    · split
      · apply readEndpoint_elim (_, _) fun vars is => (rules.addUdp (udpRule cfg is vars), Outcome.done)
        intro is v v' hfields
        rw [udpRule_congr hfields]
      · rfl

theorem startTcp_outcome (rule : TcpProxyRule) (rules : Rules) :
    (rules.startTcp cfg rule).2 ≠ .formatError := by
  unfold Rules.startTcp
  split <;> nofun

theorem readLine_rejected (cfg : Config) (line : Line) (vars : Vars) (rules rules' : Rules) :
    ((readLine cfg line vars rules).2.2 = .formatError ↔ (readLine cfg line vars rules').2.2 = .formatError) ∧
    ((readLine cfg line vars rules).2.2 = .formatError → (readLine cfg line vars rules).2.1 = rules) := by
  unfold readLine
  dsimp only
  split
  · exact ⟨Iff.rfl, fun _ => rfl⟩
  · split
    · exact ⟨Iff.rfl, fun _ => rfl⟩
    · split
      · cases (readEndpoint cfg _ _).2 with
        | none => exact ⟨Iff.rfl, fun _ => rfl⟩
        | some is => simp [startTcp_outcome]
      · split
        · cases (readEndpoint cfg _ _).2 with
          | none => exact ⟨Iff.rfl, fun _ => rfl⟩
          | some is => simp
        · exact ⟨Iff.rfl, fun _ => rfl⟩

def blank : Vars := ⟨[], 0, [], 0, 0, 0, 0⟩

def rejected (cfg : Config) (line : Line) : Bool :=
  !skipped (trim line) && (readLine cfg (trim line) blank .empty).2.2 = .formatError

def kept (cfg : Config) (line : Line) : Bool := !rejected cfg line

def ipFields (line : Line) : Option Stream :=
  let (is, proto) := Stream.word ⟨trim line, false⟩
  if skipped (trim line) = false ∧ is.failed = false ∧ proto = some ['i', 'p'] then some is else none

def storedBandwidth (cfg : Config) (i : PairId) (line : Line) : Option ℤ :=
  (ipFields line).bind fun is =>
    if i = 0 then (is.int cfg).2
    else if (is.int cfg).1.failed then none
    else ((is.int cfg).1.int cfg).2

def Vars.bandwidth (vars : Vars) (i : PairId) : ℤ :=
  if i = 0 then vars.ipSendBandwidth else vars.ipRecvBandwidth

theorem bandwidth_readEndpoint (cfg : Config) (is : Stream) (vars : Vars) (i : PairId) :
    (readEndpoint cfg is vars).1.bandwidth i = vars.bandwidth i := by
  unfold readEndpoint
  dsimp only
  split
  · rfl
  · split
    · rfl
    · split <;> rfl

theorem bandwidth_readIp (cfg : Config) (is : Stream) (vars : Vars) (i : PairId) :
    (readIp cfg is vars).1.bandwidth i =
      (if i = 0 then (is.int cfg).2
        else if (is.int cfg).1.failed then none
        else ((is.int cfg).1.int cfg).2).getD (vars.bandwidth i) := by
  unfold readIp Vars.bandwidth
  dsimp only
  by_cases hi : i = 0 <;> by_cases hfailed : (is.int cfg).1.failed <;> simp [hi, hfailed]

theorem bandwidth_handleLine (cfg : Config) (s : State) (line : Line) (i : PairId) :
    (handleLine cfg s line).vars.bandwidth i = (storedBandwidth cfg i line).getD (s.vars.bandwidth i) := by
  unfold handleLine storedBandwidth ipFields
  by_cases hskipped : skipped (trim line)
  · simp [hskipped]
  unfold readLine
  dsimp only
  by_cases hword : (Stream.word ⟨trim line, false⟩).1.failed
  · simp [hskipped, hword, Vars.bandwidth]
  obtain ⟨proto, hproto⟩ := word_stored ⟨trim line, false⟩ (by simpa using hword)
  simp only [hskipped, hword, hproto, Bool.false_eq_true, if_false, Option.getD_some, Option.some.injEq,
    true_and]
  by_cases hip : proto = ['i', 'p']
  · simp only [hip, if_true, Option.bind_some]
    rw [bandwidth_readIp]
    rfl
  · simp only [hip, if_false, Option.bind_none, Option.getD_none]
    split
    · rw [bandwidth_readEndpoint]
      rfl
    · split
      · rw [bandwidth_readEndpoint]
        rfl
      · rfl

theorem rejected_iff (hskipped : skipped (trim line) = false) (vars : Vars) (rules : Rules) :
    rejected cfg line = true ↔ (readLine cfg (trim line) vars rules).2.2 = .formatError := by
  unfold rejected
  rw [(readLine_rejected cfg (trim line) vars rules .empty).1, readLine_vars cfg _ vars blank]
  simp [hskipped]

theorem rules_handleLine_rejected (h : rejected cfg line = true) (s : State) :
    (handleLine cfg s line).rules = s.rules := by
  unfold handleLine
  by_cases hskipped : skipped (trim line)
  · simp [hskipped]
  · have herror := (rejected_iff (by simpa using hskipped) s.vars s.rules).mp h
    simpa [hskipped] using (readLine_rejected cfg (trim line) s.vars s.rules .empty).2 herror

theorem rules_handleLine_congr {s s' : State} (h : s.rules = s'.rules) :
    (handleLine cfg s line).rules = (handleLine cfg s' line).rules := by
  unfold handleLine
  by_cases hskipped : skipped (trim line)
  · simpa [hskipped] using h
  · simp [hskipped, h, readLine_vars cfg (trim line) s.vars s'.vars s'.rules]

variable {lines : List Line}

@[simp] theorem run_concat (cfg : Config) (vars : Vars) (lines : List Line) (line : Line) :
    run cfg vars (lines ++ [line]) = handleLine cfg (run cfg vars lines) line := by
  simp [run]

theorem rules_run (cfg : Config) (vars : Vars) (lines : List Line) :
    (run cfg vars (lines.filter (kept cfg))).rules = (run cfg vars lines).rules := by
  induction lines using List.reverseRecOn with
  | nil => rfl
  | append_singleton lines line ih =>
    rw [List.filter_append, run_concat]
    by_cases h : rejected cfg line
    · rw [rules_handleLine_rejected h]
      simpa [kept, h] using ih
    · simpa [kept, h] using rules_handleLine_congr ih

theorem bandwidth_run (cfg : Config) (vars : Vars) (lines : List Line) (i : PairId) :
    (run cfg vars lines).vars.bandwidth i = final (storedBandwidth cfg i) 0 lines := by
  induction lines using List.reverseRecOn with
  | nil =>
    unfold Vars.bandwidth run start
    simp
  | append_singleton lines line ih => rw [run_concat, bandwidth_handleLine, ih, final_concat]

theorem lineNum_run (cfg : Config) (vars : Vars) (lines : List Line) :
    (run cfg vars lines).lineNum = lines.length := by
  induction lines using List.reverseRecOn with
  | nil => rfl
  | append_singleton lines line ih =>
    rw [run_concat, List.length_append, List.length_singleton, ← ih]
    unfold handleLine
    dsimp only
    split <;> rfl

theorem formatError_handleLine (cfg : Config) (s : State) (line : Line) (n : ℕ) (text : Line) :
    .formatError n text ∈ (handleLine cfg s line).reports ↔
      .formatError n text ∈ s.reports ∨ rejected cfg line = true ∧ n = s.lineNum + 1 ∧ text = trim line := by
  unfold handleLine
  by_cases hskipped : skipped (trim line)
  · simp [hskipped, rejected]
  · rw [rejected_iff (by simpa using hskipped) s.vars s.rules]
    simp only [hskipped, Bool.false_eq_true, if_false, List.mem_append]
    apply or_congr_right
    cases (readLine cfg (trim line) s.vars s.rules).2.2 <;> simp [report]

theorem formatError_run (cfg : Config) (vars : Vars) (lines : List Line) (n : ℕ) (text : Line) :
    .formatError (n + 1) text ∈ (run cfg vars lines).reports ↔
      ∃ line, lines[n]? = some line ∧ rejected cfg line = true ∧ text = trim line := by
  induction lines using List.reverseRecOn with
  | nil => simp [run, start]
  | append_singleton lines line ih =>
    rw [run_concat, formatError_handleLine, ih, lineNum_run, List.getElem?_append]
    constructor
    · rintro (⟨line', hline, hrest⟩ | ⟨hrejected, hn, htext⟩)
      · obtain ⟨hlt, -⟩ := List.getElem?_eq_some_iff.mp hline
        exact ⟨line', by simpa [hlt] using hline, hrest⟩
      · obtain rfl : n = lines.length := by omega
        exact ⟨line, by simp, hrejected, htext⟩
    · rintro ⟨line', hline, hrejected, htext⟩
      split at hline
      · exact .inl ⟨line', hline, hrejected, htext⟩
      · rw [List.getElem?_singleton] at hline
        split at hline
        · cases hline
          exact .inr ⟨hrejected, by omega, htext⟩
        · cases hline

/-- What a rejected `ip` line leaves in a bandwidth is, in the end, what the last accepted `ip` line
has put there, or zero where there is none. -/
def Undisturbed (cfg : Config) (lines : List Line) : Prop :=
  ∀ i, ∀ x ∈ ((trailing (storedBandwidth cfg i) (kept cfg) lines).filterMap (storedBandwidth cfg i)).getLast?,
    x = final (storedBandwidth cfg i) 0 (lines.filter (kept cfg))

theorem init_eq_iff {lines' : List Line} (hrules : (run cfg vars lines).rules = (run cfg vars lines').rules) :
    init cfg vars lines = init cfg vars lines' ↔
      ∀ i, (run cfg vars lines).vars.bandwidth i = (run cfg vars lines').vars.bandwidth i := by
  unfold init State.result
  rw [hrules]
  simp [Fin.forall_fin_two, Vars.bandwidth]

theorem init_kept_iff (cfg : Config) (vars : Vars) (lines : List Line) :
    init cfg vars lines = init cfg vars (lines.filter (kept cfg)) ↔ Undisturbed cfg lines := by
  rw [init_eq_iff (rules_run cfg vars lines).symm]
  apply forall_congr'
  intro i
  rw [bandwidth_run, bandwidth_run]
  exact final_filter_iff _ _ _ _

def sample : Config := ⟨fun _ => none, fun _ _ => true, false⟩

theorem rejected_line_counts : ¬ ∀ (cfg : Config) (vars : Vars) (lines : List Line),
    init cfg vars lines = init cfg vars (lines.filter (kept cfg)) := by
  intro hclaim
  have h := hclaim sample blank [['i', 'p', ' ', '5', ' ', '5'], ['i', 'p', ' ', '7', ' ', 'x']]
  revert h
  decide

end TcpUdpProxy.SharedData
