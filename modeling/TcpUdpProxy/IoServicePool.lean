import TcpUdpProxy.SharedData
import Mathlib.Data.Int.CardIntervalMod
import Mathlib.Data.List.Range

namespace TcpUdpProxy

inductive IoServicePool.Step
  | begin
  | start
  | stop
  | finish
  deriving DecidableEq

/-- An `io_service` is named by its place, a thread by the `io_service` that it runs. -/
structure IoServicePool where
  ioServices : List ℕ
  threads : List ℕ
  step : IoServicePool.Step
  nextIoService : ℕ
  inRange : ioServices ≠ [] → nextIoService < ioServices.length

namespace IoServicePool

inductive Error
  | assertion
  | threadResource
  | runtimeError
  deriving DecidableEq

inductive Effect
  | run (service : ℕ)
  | stop (service : ℕ)
  | join (thread : ℕ)
  deriving DecidableEq

def create (poolSize : ℕ) : IoServicePool where
  ioServices := List.range poolSize
  threads := []
  step := .begin
  nextIoService := 0
  inRange h := List.length_pos_iff.mpr h

def Fresh (n : ℕ) (pool : IoServicePool) : Prop :=
  pool.ioServices = List.range n ∧ pool.step = .begin ∧ pool.threads = []

/-- `room` threads can still be created. -/
def start (room : ℕ) (pool : IoServicePool) : IoServicePool × List Effect × Option Error :=
  if pool.step = .begin then
    let ran := pool.ioServices.take room
    ({ pool with step := .start, threads := pool.threads ++ ran }, ran.map .run,
      if room < pool.ioServices.length then some .threadResource else none)
  else (pool, [], some .assertion)

def stop (pool : IoServicePool) : IoServicePool × List Effect :=
  if pool.step = .start then ({ pool with step := .stop }, pool.ioServices.map .stop) else (pool, [])

def join (pool : IoServicePool) : IoServicePool × List Effect :=
  if pool.step = .stop then ({ pool with step := .finish }, pool.threads.map .join) else (pool, [])

def getIoService (pool : IoServicePool) : Except Error (ℕ × IoServicePool) :=
  if h : pool.ioServices = [] then .error .runtimeError
  else
    have hnext := pool.inRange h
    .ok (pool.ioServices[pool.nextIoService],
      { pool with
        nextIoService :=
          if pool.nextIoService + 1 = pool.ioServices.length then 0 else pool.nextIoService + 1
        inRange := fun _ => by split <;> omega })

inductive Call
  | start (room : ℕ)
  | stop
  | join
  | getIoService

structure History where
  pool : IoServicePool
  effects : List Effect
  given : List ℕ

def History.call (h : History) : Call → History
  | .start room => ⟨(h.pool.start room).1, h.effects ++ (h.pool.start room).2.1, h.given⟩
  | .stop => ⟨h.pool.stop.1, h.effects ++ h.pool.stop.2, h.given⟩
  | .join => ⟨h.pool.join.1, h.effects ++ h.pool.join.2, h.given⟩
  | .getIoService =>
    match h.pool.getIoService with
    | .error _ => h
    | .ok (service, pool) => ⟨pool, h.effects, h.given ++ [service]⟩

def history (poolSize : ℕ) (calls : List Call) : History :=
  calls.foldl History.call ⟨create poolSize, [], []⟩

def done (n m : ℕ) : Step → List Effect
  | .begin => []
  | .start => (List.range m).map .run
  | .stop => (List.range m).map .run ++ (List.range n).map .stop
  | .finish => (List.range m).map .run ++ (List.range n).map .stop ++ (List.range m).map .join

def rotation (n k : ℕ) : List ℕ := (List.range k).map (· % n)

theorem rotation_succ (n k : ℕ) : rotation n (k + 1) = rotation n k ++ [k % n] := by
  unfold rotation
  rw [List.range_succ, List.map_append]
  rfl

theorem count_rotation (n k i : ℕ) (hi : i < n) :
    (rotation n k).count i = k / n + if i < k % n then 1 else 0 := by
  have hcount : (rotation n k).count i = Nat.count (· ≡ i [MOD n]) k := by
    induction k with
    | zero => rfl
    | succ k ih =>
      rw [rotation_succ, List.count_append, ih, Nat.count_succ, List.count_singleton]
      simp only [Nat.ModEq, Nat.mod_eq_of_lt hi, beq_iff_eq]
  rw [hcount, Nat.count_modEq_card k (by omega) i, Nat.mod_eq_of_lt hi]

theorem getIoService_eq {pool : IoServicePool} {n k : ℕ} (hn : 0 < n) (hs : pool.ioServices = List.range n)
    (hnext : pool.nextIoService = k % n) :
    ∃ next, pool.getIoService = .ok (k % n, next) ∧ next.ioServices = List.range n ∧
      next.threads = pool.threads ∧ next.step = pool.step ∧ next.nextIoService = (k + 1) % n := by
  obtain ⟨services, threads, step, next, inRange⟩ := pool
  subst hs hnext
  have hne : List.range n ≠ [] := List.range_eq_nil.not.mpr hn.ne'
  have hk : (k + 1) % n = (k % n + 1) % n := (Nat.mod_add_mod k n 1).symm
  have hlt := Nat.mod_lt k hn
  simp only [getIoService, hne, ↓reduceDIte, List.getElem_range, List.length_range]
  refine ⟨_, rfl, rfl, rfl, rfl, ?_⟩
  change (if k % n + 1 = n then 0 else k % n + 1) = (k + 1) % n
  rw [hk]
  split
  · next hlast => rw [hlast, Nat.mod_self]
  · exact (Nat.mod_eq_of_lt (by omega)).symm

theorem getIoService_empty {pool : IoServicePool} (hs : pool.ioServices = []) :
    pool.getIoService = .error .runtimeError := dif_pos hs

theorem start_error {pool : IoServicePool} {room : ℕ} (hstep : pool.step = .begin)
    (hroom : pool.ioServices.length ≤ room) : (pool.start room).2.2 = none := by
  unfold start
  rw [if_pos hstep]
  exact if_neg (Nat.not_lt.mpr hroom)

def Call.starts : Call → Option ℕ
  | .start room => some room
  | _ => none

structure Ran (n m : ℕ) (all : Prop) (h : History) : Prop where
  services : h.pool.ioServices = List.range n
  bound : m ≤ n
  threads : h.pool.threads = List.range m
  effects : h.effects = done n m h.pool.step
  every : all → h.pool.step ≠ .begin → m = n
  unstarted : h.pool.step = .begin → m = 0

theorem Ran.start {n m : ℕ} {all : Prop} {h : History} (hr : Ran n m all h) (room : ℕ) :
    ∃ m, Ran n m (all ∧ n ≤ room) (h.call (.start room)) := by
  obtain ⟨⟨services, threads, step, next, inRange⟩, effects, given⟩ := h
  obtain ⟨hservices, hbound, hthreads, heffects, hevery, hunstarted⟩ := hr
  dsimp only at hservices hthreads heffects hevery hunstarted
  subst hservices hthreads heffects
  cases step with
  | begin =>
    obtain rfl := hunstarted rfl
    refine ⟨min room n, ⟨rfl, Nat.min_le_right _ _, ?_, ?_, ?_, ?_⟩⟩
    · exact List.take_range
    · exact congrArg (List.map Effect.run) List.take_range
    · intro hall _
      exact Nat.min_eq_right hall.2
    · intro hbegin
      cases hbegin
  | start | stop | finish =>
    refine ⟨m, ⟨rfl, hbound, rfl, List.append_nil _, ?_, hunstarted⟩⟩
    intro hall
    exact hevery hall.1

theorem Ran.stop {n m : ℕ} {all : Prop} {h : History} (hr : Ran n m all h) : Ran n m all (h.call .stop) := by
  obtain ⟨⟨services, threads, step, next, inRange⟩, effects, given⟩ := h
  obtain ⟨hservices, hbound, hthreads, heffects, hevery, hunstarted⟩ := hr
  dsimp only at hservices hthreads heffects hevery hunstarted
  subst hservices hthreads heffects
  cases step with
  | start =>
    refine ⟨rfl, hbound, rfl, rfl, ?_, ?_⟩
    · intro hall _
      exact hevery hall (by decide)
    · intro hbegin
      cases hbegin
  | begin | stop | finish => exact ⟨rfl, hbound, rfl, List.append_nil _, hevery, hunstarted⟩

theorem Ran.join {n m : ℕ} {all : Prop} {h : History} (hr : Ran n m all h) : Ran n m all (h.call .join) := by
  obtain ⟨⟨services, threads, step, next, inRange⟩, effects, given⟩ := h
  obtain ⟨hservices, hbound, hthreads, heffects, hevery, hunstarted⟩ := hr
  dsimp only at hservices hthreads heffects hevery hunstarted
  subst hservices hthreads heffects
  cases step with
  | stop =>
    refine ⟨rfl, hbound, rfl, rfl, ?_, ?_⟩
    · intro hall _
      exact hevery hall (by decide)
    · intro hbegin
      cases hbegin
  | begin | start | finish => exact ⟨rfl, hbound, rfl, List.append_nil _, hevery, hunstarted⟩

theorem Ran.getIoService {n m : ℕ} {all : Prop} {h : History} (hr : Ran n m all h) :
    Ran n m all (h.call .getIoService) := by
  obtain ⟨hservices, hbound, hthreads, heffects, hevery, hunstarted⟩ := hr
  unfold History.call IoServicePool.getIoService
  split_ifs with hnone
  all_goals exact ⟨hservices, hbound, hthreads, heffects, hevery, hunstarted⟩

theorem Ran.call {n m : ℕ} {all : Prop} {h : History} (hr : Ran n m all h) (c : Call) :
    ∃ m, Ran n m (all ∧ ∀ room, c.starts = some room → n ≤ room) (h.call c) := by
  have hweaken {m' : ℕ} {h' : History} {P : Prop} (hr : Ran n m' all h') : Ran n m' (all ∧ P) h' :=
    { hr with every := fun hall => hr.every hall.1 }
  cases c with
  | start room =>
    obtain ⟨m, hr⟩ := hr.start room
    exact ⟨m, { hr with every := fun hall => hr.every ⟨hall.1, hall.2 room rfl⟩ }⟩
  | stop => exact ⟨m, hweaken hr.stop⟩
  | join => exact ⟨m, hweaken hr.join⟩
  | getIoService => exact ⟨m, hweaken hr.getIoService⟩

theorem history_effects (n : ℕ) (calls : List Call) : ∃ m, m ≤ n ∧
    (history n calls).pool.threads = List.range m ∧
    (history n calls).effects = done n m (history n calls).pool.step ∧
    ((∀ c ∈ calls, ∀ room, c.starts = some room → n ≤ room) →
      (history n calls).pool.step ≠ .begin → m = n) := by
  suffices h : ∃ m, Ran n m (∀ c ∈ calls, ∀ room, c.starts = some room → n ≤ room) (history n calls) by
    obtain ⟨m, hr⟩ := h
    exact ⟨m, hr.bound, hr.threads, hr.effects, hr.every⟩
  unfold history
  induction calls using List.reverseRecOn with
  | nil => exact ⟨0, ⟨rfl, Nat.zero_le n, rfl, rfl, fun _ h => absurd rfl h, fun _ => rfl⟩⟩
  | append_singleton calls c ih =>
    obtain ⟨m, hr⟩ := ih
    rw [List.foldl_concat]
    obtain ⟨m, hr⟩ := hr.call c
    refine ⟨m, { hr with every := ?_ }⟩
    intro hall
    apply hr.every
    constructor
    · intro c' hc'
      exact hall c' (List.mem_append_left _ hc')
    · exact hall c (List.mem_append_right _ (List.mem_singleton_self c))

end IoServicePool

namespace SharedData

open IoServicePool (rotation)

inductive Proxied
  | tcp (rule : TcpProxyRule)
  | udp (rule : UdpProxyRule)
  deriving DecidableEq

structure Placed where
  state : State
  pool : IoServicePool
  placed : List (Proxied × ℕ)

def place (pool : IoServicePool) (proxied : Proxied) :
    Except IoServicePool.Error (IoServicePool × List (Proxied × ℕ)) :=
  match pool.getIoService with
  | .error e => .error e
  | .ok (service, pool) => .ok (pool, [(proxied, service)])

/-- `readLine` with the pool that the constructors of the proxies ask for an `io_service`. -/
def readLineOn (cfg : Config) (line : Line) (vars : Vars) (rules : Rules) (pool : IoServicePool) :
    Except IoServicePool.Error ((Vars × Rules × Outcome) × IoServicePool × List (Proxied × ℕ)) :=
  let (is, stored) := Stream.word ⟨line, false⟩
  let vars := { vars with proto := stored.getD vars.proto }
  if is.failed then .ok ((vars, rules, .formatError), pool, [])
  else if vars.proto = ['i', 'p'] then
    let (vars, outcome) := readIp cfg is vars
    .ok ((vars, rules, outcome), pool, [])
  else if vars.proto = ['t', 'c', 'p'] then
    let (vars, is) := readEndpoint cfg is vars
    match is with
    | none => .ok ((vars, rules, .formatError), pool, [])
    | some is =>
      let rule := tcpRule cfg is vars
      (place pool (.tcp rule)).map fun given => ((vars, rules.startTcp cfg rule), given)
  else if vars.proto = ['u', 'd', 'p'] then
    let (vars, is) := readEndpoint cfg is vars
    match is with
    | none => .ok ((vars, rules, .formatError), pool, [])
    | some is =>
      let rule := udpRule cfg is vars
      (place pool (.udp rule)).map fun given => ((vars, rules.addUdp rule, .done), given)
  else .ok ((vars, rules, .formatError), pool, [])

def handleLineOn (cfg : Config) (p : Placed) (line : Line) : Except IoServicePool.Error Placed :=
  let lineNum := p.state.lineNum + 1
  if skipped (trim line) then .ok { p with state := { p.state with lineNum := lineNum } }
  else
    match readLineOn cfg (trim line) p.state.vars p.state.rules p.pool with
    | .error e => .error e
    | .ok ((vars, rules, outcome), pool, given) =>
      .ok ⟨⟨lineNum, vars, rules, p.state.reports ++ report lineNum (trim line) outcome⟩, pool,
        p.placed ++ given⟩

def runOn (cfg : Config) (networkThreadNum : ℕ) (vars : Vars) (lines : List Line) :
    Except IoServicePool.Error Placed :=
  lines.foldlM (handleLineOn cfg) ⟨start vars, .create networkThreadNum, []⟩

def tcpOf : Proxied × ℕ → Option TcpProxyRule
  | (.tcp rule, _) => some rule
  | _ => none

def udpOf : Proxied × ℕ → Option UdpProxyRule
  | (.udp rule, _) => some rule
  | _ => none

theorem readLineOn_cases (cfg : Config) (line : Line) (vars : Vars) (rules : Rules) (pool : IoServicePool) :
    (readLineOn cfg line vars rules pool = .ok (readLine cfg line vars rules, pool, []) ∧
      (readLine cfg line vars rules).2.1 = rules) ∨
    ∃ proxied, readLineOn cfg line vars rules pool =
        (place pool proxied).map (fun given => (readLine cfg line vars rules, given)) ∧
      (readLine cfg line vars rules).2.1.attempts = rules.attempts ++ (tcpOf (proxied, 0)).toList ∧
      (readLine cfg line vars rules).2.1.udpRules = rules.udpRules ++ (udpOf (proxied, 0)).toList := by
  unfold readLineOn readLine
  cases Stream.word ⟨line, false⟩ with
  | mk is stored =>
    dsimp only
    split_ifs with hfailed hip htcp hudp
    · exact .inl ⟨rfl, rfl⟩
    · exact .inl ⟨rfl, rfl⟩
    · cases readEndpoint cfg is { vars with proto := stored.getD vars.proto } with
      | mk vars is =>
        cases is with
        | none => exact .inl ⟨rfl, rfl⟩
        | some is =>
          refine .inr ⟨.tcp (tcpRule cfg is vars), rfl, ?_⟩
          dsimp only [Option.elim_some, Rules.startTcp]
          split
          · exact ⟨rfl, (List.append_nil _).symm⟩
          · exact ⟨rfl, (List.append_nil _).symm⟩
    · cases readEndpoint cfg is { vars with proto := stored.getD vars.proto } with
      | mk vars is =>
        cases is with
        | none => exact .inl ⟨rfl, rfl⟩
        | some is => exact .inr ⟨.udp (udpRule cfg is vars), rfl, (List.append_nil _).symm, rfl⟩
    · exact .inl ⟨rfl, rfl⟩

structure Rotating (n : ℕ) (s : State) (p : Placed) : Prop where
  state : p.state = s
  services : p.pool.ioServices = List.range n
  unstarted : p.pool.step = .begin ∧ p.pool.threads = []
  next : p.pool.nextIoService = p.placed.length % n
  given : p.placed.map Prod.snd = rotation n p.placed.length
  tcp : p.placed.filterMap tcpOf = s.rules.attempts
  udp : p.placed.filterMap udpOf = s.rules.udpRules

def Rules.Some (rules : Rules) : Prop := rules.attempts ≠ [] ∨ rules.udpRules ≠ []

theorem handleLine_some {cfg : Config} {s : State} (hs : s.rules.Some) (line : Line) :
    (handleLine cfg s line).rules.Some := by
  unfold handleLine
  split
  · exact hs
  · dsimp only
    rcases readLineOn_cases cfg (trim line) s.vars s.rules (.create 0) with
      ⟨-, hsame⟩ | ⟨proxied, -, hattempts, hudpRules⟩
    · rw [hsame]
      exact hs
    · unfold Rules.Some
      rw [hattempts, hudpRules]
      refine hs.imp ?_ ?_
      · exact fun h => List.append_ne_nil_of_left_ne_nil h _
      · exact fun h => List.append_ne_nil_of_left_ne_nil h _

theorem Rotating.same {n : ℕ} {s : State} {p : Placed} (hr : Rotating n s p) {t : State}
    (hsame : t.rules = s.rules) : Rotating n t ⟨t, p.pool, p.placed ++ []⟩ := by
  rw [List.append_nil]
  refine ⟨rfl, hr.services, hr.unstarted, hr.next, hr.given, ?_, ?_⟩
  · exact hr.tcp.trans (congrArg Rules.attempts hsame.symm)
  · exact hr.udp.trans (congrArg Rules.udpRules hsame.symm)

theorem Rotating.placed {n : ℕ} {s : State} {p : Placed} (hr : Rotating n s p) (hn : 0 < n)
    {proxied : Proxied} {rules : Rules}
    (htcp : rules.attempts = s.rules.attempts ++ (tcpOf (proxied, 0)).toList)
    (hudp : rules.udpRules = s.rules.udpRules ++ (udpOf (proxied, 0)).toList) :
    ∃ pool given, place p.pool proxied = .ok (pool, given) ∧
      ∀ t, t.rules = rules → Rotating n t ⟨t, pool, p.placed ++ given⟩ := by
  obtain ⟨pool, hget, hservices, hthreads, hstep, hnext⟩ :=
    IoServicePool.getIoService_eq hn hr.services hr.next
  refine ⟨pool, [(proxied, p.placed.length % n)], by unfold place; rw [hget], ?_⟩
  rintro t rfl
  refine ⟨rfl, hservices, ⟨hstep.trans hr.unstarted.1, hthreads.trans hr.unstarted.2⟩, ?_, ?_, ?_, ?_⟩
  · rw [List.length_append]
    exact hnext
  · rw [List.map_append, hr.given, List.length_append]
    exact (IoServicePool.rotation_succ n _).symm
  · rw [List.filterMap_append, hr.tcp]
    refine Eq.trans ?_ htcp.symm
    cases proxied <;> rfl
  · rw [List.filterMap_append, hr.udp]
    refine Eq.trans ?_ hudp.symm
    cases proxied <;> rfl

theorem place_empty {pool : IoServicePool} (hs : pool.ioServices = []) (proxied : Proxied) :
    place pool proxied = .error .runtimeError := by
  unfold place
  rw [IoServicePool.getIoService_empty hs]

theorem handleLineOn_cases (cfg : Config) {n : ℕ} {s : State} {p : Placed} (hr : Rotating n s p) (line : Line) :
    (∃ q, handleLineOn cfg p line = .ok q ∧ Rotating n (handleLine cfg s line) q ∧
      (n = 0 → q.placed = p.placed)) ∨
    n = 0 ∧ handleLineOn cfg p line = .error .runtimeError ∧ (handleLine cfg s line).rules.Some := by
  obtain rfl := hr.state
  unfold handleLineOn handleLine
  by_cases hskip : skipped (trim line) = true
  · rw [if_pos hskip, if_pos hskip]
    exact .inl ⟨_, rfl, ⟨rfl, hr.services, hr.unstarted, hr.next, hr.given, hr.tcp, hr.udp⟩, fun _ => rfl⟩
  · rw [if_neg hskip, if_neg hskip]
    rcases readLineOn_cases cfg (trim line) p.state.vars p.state.rules p.pool with
      ⟨hread, hsame⟩ | ⟨proxied, hread, hattempts, hudpRules⟩
    · rw [hread]
      exact .inl ⟨_, rfl, hr.same hsame, fun _ => List.append_nil _⟩
    · rcases Nat.eq_zero_or_pos n with rfl | hn
      · rw [hread, place_empty hr.services]
        refine .inr ⟨rfl, rfl, ?_⟩
        unfold Rules.Some
        rw [hattempts, hudpRules]
        cases proxied with
        | tcp rule => exact .inl (List.concat_ne_nil _ _)
        | udp rule => exact .inr (List.concat_ne_nil _ _)
      · obtain ⟨pool, given, hplace, hr⟩ := hr.placed hn hattempts hudpRules
        rw [hread, hplace]
        exact .inl ⟨_, rfl, hr _ rfl, fun h => absurd h hn.ne'⟩

theorem runOn_cases (cfg : Config) (n : ℕ) (vars : Vars) (lines : List Line) :
    (∃ p, runOn cfg n vars lines = .ok p ∧ Rotating n (run cfg vars lines) p ∧ (n = 0 → p.placed = [])) ∨
    n = 0 ∧ runOn cfg n vars lines = .error .runtimeError ∧ (run cfg vars lines).rules.Some := by
  unfold runOn run
  induction lines using List.reverseRecOn with
  | nil => exact .inl ⟨_, rfl, ⟨rfl, rfl, ⟨rfl, rfl⟩, (Nat.zero_mod n).symm, rfl, rfl, rfl⟩, fun _ => rfl⟩
  | append_singleton lines line ih =>
    rw [List.foldlM_append, List.foldl_concat]
    rcases ih with ⟨p, hp, hr, hnone⟩ | ⟨hn, herror, hsome⟩
    · rw [hp]
      change (∃ q, List.foldlM (handleLineOn cfg) p [line] = _ ∧ _) ∨
        n = 0 ∧ List.foldlM (handleLineOn cfg) p [line] = _ ∧ _
      rw [List.foldlM_cons]
      rcases handleLineOn_cases cfg hr line with ⟨q, hq, hr, hsame⟩ | ⟨hn, herror, hsome⟩
      · rw [hq]
        refine .inl ⟨q, rfl, hr, ?_⟩
        intro hn
        exact (hsame hn).trans (hnone hn)
      · rw [herror]
        exact .inr ⟨hn, rfl, hsome⟩
    · rw [herror]
      exact .inr ⟨hn, rfl, handleLine_some hsome line⟩

theorem Rotating.length {n : ℕ} {s : State} {p : Placed} (hr : Rotating n s p) :
    p.placed.length = s.rules.attempts.length + s.rules.udpRules.length := by
  rw [← hr.tcp, ← hr.udp]
  induction p.placed with
  | nil => rfl
  | cons given placed ih =>
    obtain ⟨proxied, service⟩ := given
    cases proxied
    all_goals
      simp only [List.filterMap_cons, tcpOf, udpOf, List.length_cons]
      omega

theorem runOn_fresh {cfg : Config} {n : ℕ} {vars : Vars} {lines : List Line} {p : Placed}
    (h : runOn cfg n vars lines = .ok p) : p.pool.Fresh n := by
  rcases runOn_cases cfg n vars lines with ⟨q, hrun, hr, -⟩ | ⟨-, herror, -⟩
  · rw [h] at hrun
    cases hrun
    exact ⟨hr.services, hr.unstarted⟩
  · rw [h] at herror
    cases herror

def threeRules : List Line :=
  [['t', 'c', 'p', ' ', '1', ' '] ++ addressText ++ [' ', '2'],
    ['u', 'd', 'p', ' ', '3', ' '] ++ addressText ++ [' ', '4'], ['#'],
    ['t', 'c', 'p', ' ', '5', ' '] ++ addressText ++ [' ', '6']]

end SharedData

end TcpUdpProxy
