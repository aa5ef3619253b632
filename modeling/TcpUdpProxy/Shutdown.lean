import TcpUdpProxy.ProxyServer

namespace TcpUdpProxy.ProxyServer

open Execution IoServicePool

inductive Period
  | up
  | destroying
  | closing
  | udpOver
  | ipOver
  deriving DecidableEq

def Main.period : Main → Period
  | .destroy => .destroying
  | .stopTcp _ | .joinUdp => .closing
  | .joinIp => .udpOver
  | .sleep | .stopPool | .stopping _ | .joinPool | .joining _ | .delete | .done => .ipOver
  | _ => .up

def Main.told (proxies : ℕ) (main : Main) : ℕ :=
  match main with
  | .stopTcp proxy => proxy
  | main => if main.period = .up ∨ main.period = .destroying then 0 else proxies

def Thread.left (thread : Thread) : Prop := thread = .closing ∨ thread = .ended

structure Flags (cfg : Config) (s : State) : Prop where
  raised : s.main.period = .up → s.runningFlag = true
  lowered : s.main.period ≠ .up → s.main.period ≠ .destroying → s.runningFlag = false
  udpLeft : s.udp.left → s.runningFlag = false
  ipLeft : s.ip.left → s.runningFlag = false
  udpOver : s.main.period = .udpOver ∨ s.main.period = .ipOver → s.udp.over = true
  ipOver : s.main.period = .ipOver → s.ip.over = true
  length : s.closeFlags.length = cfg.proxies
  told : ∀ i closeFlag, s.closeFlags[i]? = some closeFlag → (closeFlag = true ↔ i < s.main.told cfg.proxies)

theorem flags_start (cfg : Config) (pool : IoServicePool) (room : ℕ) : Flags cfg (start cfg pool room) := by
  constructor
  case raised => intro _; rfl
  case length => exact List.length_replicate
  case told =>
    intro i closeFlag h
    have hfalse := List.eq_of_mem_replicate (List.mem_of_getElem? h)
    subst hfalse
    simp [start, Main.told, Main.period]
  case udpLeft => rintro (h | h) <;> cases h
  case ipLeft => rintro (h | h) <;> cases h
  all_goals
    intro h
    simp [start, Main.period] at h

section move

variable {cfg : Config} {s t : State}

theorem Flags.move (hf : Flags cfg s) (hperiod : t.main.period = s.main.period)
    (htold : t.main.told cfg.proxies = s.main.told cfg.proxies) (hflag : t.runningFlag = s.runningFlag)
    (hudp : t.udp = s.udp) (hip : t.ip = s.ip) (hclose : t.closeFlags = s.closeFlags) : Flags cfg t := by
  obtain ⟨main, flag, pool, services, closeFlags, udp, ip, room⟩ := t
  dsimp only at hperiod htold hflag hudp hip hclose
  subst hflag hudp hip hclose
  obtain ⟨hraised, hlowered, hudpLeft, hipLeft, hudpOver, hipOver, hlength, htold'⟩ := hf
  rw [← hperiod] at hraised hlowered hudpOver hipOver
  rw [← htold] at htold'
  exact ⟨hraised, hlowered, hudpLeft, hipLeft, hudpOver, hipOver, hlength, htold'⟩

theorem flags_main (hf : Flags cfg s) (h : mainStep cfg s = some t) : Flags cfg t := by
  obtain ⟨main, flag, pool, services, closeFlags, udp, ip, room⟩ := s
  obtain ⟨hraised, hlowered, hudpLeft, hipLeft, hudpOver, hipOver, hlength, htold⟩ := id hf
  cases main with
  | construct =>
    obtain rfl : flag = true := hraised rfl
    dsimp only [mainStep] at h
    split_ifs at h with hip
    · cases room with
      | zero =>
        cases h
        exact hf.move rfl rfl rfl rfl rfl rfl
      | succ room =>
        cases h
        refine ⟨hraised, hlowered, hudpLeft, ?_, hudpOver, ?_, hlength, htold⟩
        · rintro (h | h) <;> cases h
        · intro h
          cases h
    · cases h
      exact hf.move rfl rfl rfl rfl rfl rfl
  | raiseFlag =>
    obtain rfl : flag = true := hraised rfl
    cases h
    exact hf.move rfl rfl rfl rfl rfl rfl
  | startUdp =>
    obtain rfl : flag = true := hraised rfl
    cases room with
    | zero =>
      cases h
      refine ⟨?_, ?_, hudpLeft, hipLeft, ?_, ?_, hlength, htold⟩
      · intro h
        cases h
      · intro _ h
        exact absurd rfl h
      · rintro (h | h) <;> cases h
      · intro h
        cases h
    | succ room =>
      cases h
      refine ⟨hraised, hlowered, ?_, hipLeft, ?_, hipOver, hlength, htold⟩
      · rintro (h | h) <;> cases h
      · rintro (h | h) <;> cases h
  | startPool | stopPool | joinPool =>
    obtain ⟨pool, rfl, rfl⟩ := Option.map_eq_some_iff.mp h
    exact hf.move rfl rfl rfl rfl rfl rfl
  | starting todo failed =>
    cases todo with
    | nil =>
      cases failed with
      | false =>
        cases h
        exact hf.move rfl rfl rfl rfl rfl rfl
      | true =>
        cases h
        refine ⟨?_, ?_, hudpLeft, hipLeft, ?_, ?_, hlength, htold⟩
        · intro h
          cases h
        · intro _ h
          exact absurd rfl h
        · rintro (h | h) <;> cases h
        · intro h
          cases h
    | cons effect todo =>
      obtain ⟨services, -, rfl⟩ := Option.map_eq_some_iff.mp h
      exact hf.move rfl rfl rfl rfl rfl rfl
  | stopping todo | joining todo =>
    cases todo with
    | nil =>
      cases h
      exact hf.move rfl rfl rfl rfl rfl rfl
    | cons effect todo =>
      obtain ⟨services, -, rfl⟩ := Option.map_eq_some_iff.mp h
      exact hf.move rfl rfl rfl rfl rfl rfl
  | lock | delete =>
    cases h
    exact hf.move rfl rfl rfl rfl rfl rfl
  | waiting | done | failed => cases h
  | lowerFlag =>
    cases h
    refine ⟨?_, fun _ _ => rfl, fun _ => rfl, fun _ => rfl, ?_, ?_, hlength, htold⟩
    · intro h
      cases h
    · rintro (h | h) <;> cases h
    · intro h
      cases h
  | destroy =>
    cases h
    refine ⟨?_, fun _ _ => rfl, fun _ => rfl, fun _ => rfl, ?_, ?_, hlength, htold⟩
    · intro h
      cases h
    · rintro (h | h) <;> cases h
    · intro h
      cases h
  | stopTcp proxy =>
    dsimp only [mainStep] at h
    split_ifs at h with hproxy
    · cases h
      refine ⟨hraised, hlowered, hudpLeft, hipLeft, hudpOver, hipOver, ?_, ?_⟩
      · exact List.length_set.trans hlength
      · intro i closeFlag hi
        change _ ↔ i < proxy + 1
        dsimp only at hi
        by_cases hsame : proxy = i
        · subst hsame
          rw [List.getElem?_set_self hproxy] at hi
          cases hi
          simp
        · rw [List.getElem?_set_ne hsame] at hi
          refine (htold i closeFlag hi).trans ?_
          change i < proxy ↔ _
          omega
    · cases h
      refine ⟨hraised, hlowered, hudpLeft, hipLeft, hudpOver, hipOver, hlength, ?_⟩
      intro i closeFlag hi
      refine (htold i closeFlag hi).trans ?_
      change i < proxy ↔ i < cfg.proxies
      have hlt : i < closeFlags.length := (List.getElem?_eq_some_iff.mp hi).1
      dsimp only at hlength
      omega
  | joinUdp =>
    dsimp only [mainStep] at h
    split_ifs at h with hover
    cases h
    refine ⟨?_, fun _ _ => hlowered nofun nofun, hudpLeft, hipLeft, fun _ => hover, ?_, hlength, htold⟩
    · intro h
      cases h
    · intro h
      cases h
  | joinIp =>
    dsimp only [mainStep] at h
    split_ifs at h with hover
    cases h
    refine ⟨?_, fun _ _ => hlowered nofun nofun, hudpLeft, hipLeft, fun _ => hudpOver (.inl rfl),
      fun _ => hover, hlength, htold⟩
    intro h
    cases h
  | sleep =>
    cases h
    cases pool with
    | none => exact hf.move rfl rfl rfl rfl rfl rfl
    | some pool => exact hf.move rfl rfl rfl rfl rfl rfl

theorem Thread.step_over {thread next : Thread} {on : Bool} {behind : Thread}
    (h : thread.step on behind = some next) : thread.over = false := by
  cases thread with
  | absent | ended => cases h
  | test | pass | closing => rfl

theorem Thread.step_left {thread next : Thread} {on : Bool} {behind : Thread}
    (h : thread.step on behind = some next) (hnext : next.left) : thread.left ∨ on = false := by
  cases thread with
  | absent | ended => cases h
  | closing => exact .inl (.inl rfl)
  | test =>
    cases on with
    | false => exact .inr rfl
    | true => cases h; rcases hnext with h | h <;> cases h
  | pass => cases h; rcases hnext with h | h <;> cases h

theorem flags_wake (hf : Flags cfg s) : Flags cfg (wake s) := by
  unfold wake
  split_ifs with hwaiting
  · apply hf.move
    · rw [hwaiting]
      rfl
    · rw [hwaiting]
      rfl
    all_goals rfl
  · exact hf

theorem flags_step {e : Event} (hf : Flags cfg s) (h : step cfg s e = some t) : Flags cfg t := by
  cases e with
  | main => exact flags_main hf h
  | udp =>
    obtain ⟨udp, hudp, rfl⟩ := Option.map_eq_some_iff.mp h
    refine ⟨hf.raised, hf.lowered, ?_, hf.ipLeft, ?_, hf.ipOver, hf.length, hf.told⟩
    · intro hleft
      exact (Thread.step_left hudp hleft).elim hf.udpLeft id
    · intro hmain
      have hover := hf.udpOver hmain
      rw [Thread.step_over hudp] at hover
      cases hover
  | ip =>
    obtain ⟨ip, hip, rfl⟩ := Option.map_eq_some_iff.mp h
    refine ⟨hf.raised, hf.lowered, hf.udpLeft, ?_, hf.udpOver, ?_, hf.length, hf.told⟩
    · intro hleft
      exact (Thread.step_left hip hleft).elim hf.ipLeft id
    · intro hmain
      have hover := hf.ipOver hmain
      rw [Thread.step_over hip] at hover
      cases hover
  | service i =>
    obtain ⟨service, -, rfl⟩ := Option.map_eq_some_iff.mp h
    exact hf.move rfl rfl rfl rfl rfl rfl
  | terminate =>
    cases h
    exact flags_wake hf
  | spurious =>
    dsimp only [step] at h
    split_ifs at h with hwaiting
    cases h
    have hwoken := flags_wake hf
    unfold wake at hwoken
    rwa [if_pos hwaiting] at hwoken

end move

def Main.todo : Main → List Effect
  | .starting todo _ | .stopping todo | .joining todo => todo
  | _ => []

def Main.steps : Main → List IoServicePool.Step
  | .construct | .raiseFlag | .startUdp | .startPool | .failed => [.begin]
  | .starting _ _ | .lock | .waiting | .lowerFlag => [.start]
  | .destroy | .stopTcp _ | .joinUdp | .joinIp | .sleep | .stopPool => [.begin, .start]
  | .stopping _ | .joinPool => [.begin, .stop]
  | .joining _ | .delete => [.begin, .finish]
  | .done => []

def Pending (pool : IoServicePool) : Effect → Prop
  | .run i => pool.step = .start ∧ i ∈ pool.threads
  | .stop _ => pool.step = .stop
  | .join i => pool.step = .finish ∧ i ∈ pool.threads

structure Held (n : ℕ) (todo : List Effect) (pool : IoServicePool) (services : List IoService) : Prop where
  ioServices : pool.ioServices = List.range n
  length : services.length = n
  threads : ∀ i ∈ pool.threads, i < n
  unstarted : pool.step = .begin → pool.threads = []
  pending : ∀ effect ∈ todo, Pending pool effect
  present : ∀ (i : ℕ) (service : IoService), services[i]? = some service → service.thread ≠ .absent → i ∈ pool.threads
  created : ∀ i ∈ pool.threads, .run i ∈ todo ∨
    ∃ service : IoService, services[i]? = some service ∧ service.thread ≠ .absent
  running : pool.step = .begin ∨ pool.step = .start →
    ∀ (i : ℕ) (service : IoService), services[i]? = some service → service.stopped = false
  stopped : pool.step = .stop ∨ pool.step = .finish →
    ∀ (i : ℕ) (service : IoService), services[i]? = some service → .stop i ∈ todo ∨ service.stopped = true
  left : ∀ (i : ℕ) (service : IoService), services[i]? = some service → service.thread.left → service.stopped = true
  joined : pool.step = .finish → ∀ i ∈ pool.threads, .join i ∈ todo ∨
    ∃ service : IoService, services[i]? = some service ∧ service.thread = .ended

theorem held_start {n : ℕ} {pool : IoServicePool} (hpool : pool.Fresh n) :
    Held n [] pool (List.replicate n ⟨false, .absent⟩) := by
  obtain ⟨hioServices, hstep, hthreads⟩ := hpool
  have hsame (i : ℕ) (service : IoService) (h : (List.replicate n ⟨false, .absent⟩)[i]? = some service) :
      service = ⟨false, .absent⟩ := List.eq_of_mem_replicate (List.mem_of_getElem? h)
  constructor
  case ioServices => exact hioServices
  case length => exact List.length_replicate
  case threads => intro i h; rw [hthreads] at h; cases h
  case unstarted => intro _; exact hthreads
  case pending => intro effect h; cases h
  case present =>
    intro i service h hthread
    rw [hsame i service h] at hthread
    exact absurd rfl hthread
  case created => intro i h; rw [hthreads] at h; cases h
  case running =>
    intro _ i service h
    rw [hsame i service h]
  case stopped => rw [hstep]; rintro (h | h) <;> cases h
  case left =>
    intro i service h hleft
    rw [hsame i service h] at hleft
    rcases hleft with h | h <;> cases h
  case joined => intro h; rw [hstep] at h; cases h

section held

variable {n : ℕ} {effect : Effect} {todo : List Effect} {pool : IoServicePool} {services : List IoService}

theorem Held.start (hh : Held n [] pool services) (hstep : pool.step = .begin) (room : ℕ) :
    Held n (pool.start room).2.1 (pool.start room).1 services ∧ (pool.start room).1.step = .start := by
  obtain ⟨ioServices, threads, step, next, inRange⟩ := pool
  obtain ⟨hioServices, hlength, hthreads, hunstarted, -, hpresent, -, hrunning, -, hleft, -⟩ := hh
  dsimp only at hstep hioServices
  subst hstep hioServices
  obtain rfl : threads = [] := hunstarted rfl
  refine ⟨⟨rfl, hlength, ?_, ?_, ?_, ?_, ?_, fun _ => hrunning (.inl rfl), ?_, hleft, ?_⟩, rfl⟩
  · intro i hi
    exact List.mem_range.mp (List.mem_of_mem_take hi)
  · intro h
    cases h
  · intro effect heffect
    obtain ⟨i, hi, rfl⟩ := List.mem_map.mp heffect
    exact ⟨rfl, hi⟩
  · intro i service hi hthread
    cases hpresent i service hi hthread
  · intro i hi
    exact .inl (List.mem_map_of_mem hi)
  · rintro (h | h) <;> cases h
  · intro h
    cases h

theorem Held.stop (hh : Held n [] pool services) (hstep : pool.step = .begin ∨ pool.step = .start) :
    Held n pool.stop.2 pool.stop.1 services ∧
      (pool.stop.1.step = .begin ∨ pool.stop.1.step = .stop) := by
  unfold IoServicePool.stop
  rcases hstep with hstep | hstep
  · rw [if_neg (by rw [hstep]; decide)]
    exact ⟨hh, .inl hstep⟩
  · rw [if_pos hstep]
    refine ⟨⟨hh.ioServices, hh.length, hh.threads, ?_, ?_, hh.present, ?_, ?_, ?_, hh.left, ?_⟩, .inr rfl⟩
    · intro h
      cases h
    · intro effect heffect
      obtain ⟨i, -, rfl⟩ := List.mem_map.mp heffect
      rfl
    · intro i hi
      rcases hh.created i hi with hrun | hthread
      · cases hrun
      · exact .inr hthread
    · rintro (h | h) <;> cases h
    · intro _ i service hi
      have hlt := (List.getElem?_eq_some_iff.mp hi).1
      rw [hh.length] at hlt
      refine .inl (List.mem_map_of_mem ?_)
      rw [hh.ioServices]
      exact List.mem_range.mpr hlt
    · intro h
      cases h

theorem Held.join (hh : Held n [] pool services) (hstep : pool.step = .begin ∨ pool.step = .stop) :
    Held n pool.join.2 pool.join.1 services ∧
      (pool.join.1.step = .begin ∨ pool.join.1.step = .finish) := by
  unfold IoServicePool.join
  rcases hstep with hstep | hstep
  · rw [if_neg (by rw [hstep]; decide)]
    exact ⟨hh, .inl hstep⟩
  · rw [if_pos hstep]
    refine ⟨⟨hh.ioServices, hh.length, hh.threads, ?_, ?_, hh.present, ?_, ?_, ?_, hh.left, ?_⟩, .inr rfl⟩
    · intro h
      cases h
    · intro effect heffect
      obtain ⟨i, hi, rfl⟩ := List.mem_map.mp heffect
      exact ⟨rfl, hi⟩
    · intro i hi
      rcases hh.created i hi with hrun | hthread
      · cases hrun
      · exact .inr hthread
    · rintro (h | h) <;> cases h
    · intro _ i service hi
      rcases hh.stopped (.inl hstep) i service hi with hstop | hstopped
      · cases hstop
      · exact .inr hstopped
    · intro _ i hi
      exact .inl (List.mem_map_of_mem hi)

theorem modify_get {f : IoService → IoService} {i j : ℕ} {service : IoService}
    (h : services[j]? = some service) :
    (services.modify i f)[j]? = some (if i = j then f service else service) := by
  rw [List.getElem?_modify, h]
  by_cases hij : i = j <;> simp [hij]

theorem of_modify_get {f : IoService → IoService} {i j : ℕ} {service : IoService}
    (h : (services.modify i f)[j]? = some service) :
    ∃ before, services[j]? = some before ∧ service = if i = j then f before else before := by
  rw [List.getElem?_modify] at h
  obtain ⟨before, hbefore, rfl⟩ := Option.map_eq_some_iff.mp h
  refine ⟨before, hbefore, ?_⟩
  by_cases hij : i = j <;> simp [hij]

theorem mem_todo {effect other : Effect} (h : other ∈ effect :: todo) (hne : other ≠ effect) : other ∈ todo :=
  (List.mem_cons.mp h).resolve_left hne

theorem Held.perform {services' : List IoService} (hh : Held n (effect :: todo) pool services)
    (h : perform services effect = some services') : Held n todo pool services' := by
  have hpending : ∀ other ∈ todo, Pending pool other := fun other ho => hh.pending other (List.mem_cons_of_mem _ ho)
  have hhead := hh.pending effect (List.mem_cons_self ..)
  cases effect with
  | run i =>
    cases h
    obtain ⟨hstep, hi⟩ := hhead
    refine ⟨hh.ioServices, (List.length_modify ..).trans hh.length, hh.threads, hh.unstarted, hpending,
      ?_, ?_, ?_, ?_, ?_, ?_⟩
    · intro j service hj hthread
      obtain ⟨before, hbefore, rfl⟩ := of_modify_get hj
      by_cases hij : i = j
      · exact hij ▸ hi
      · rw [if_neg hij] at hthread
        exact hh.present j before hbefore hthread
    · intro j hj
      by_cases hij : i = j
      · subst hij
        have hlt : i < services.length := hh.length ▸ hh.threads i hj
        refine .inr ⟨_, modify_get (List.getElem?_eq_getElem hlt), ?_⟩
        rw [if_pos rfl]
        nofun
      · rcases hh.created j hj with hrun | ⟨service, hservice, hthread⟩
        · refine .inl (mem_todo hrun ?_)
          rintro ⟨⟩
          exact hij rfl
        · refine .inr ⟨_, modify_get hservice, ?_⟩
          rwa [if_neg hij]
    · intro hrunning j service hj
      obtain ⟨before, hbefore, rfl⟩ := of_modify_get hj
      have hstopped := hh.running hrunning j before hbefore
      split_ifs
      · exact hstopped
      · exact hstopped
    · rw [hstep]
      rintro (h | h) <;> cases h
    · intro j service hj hleft
      obtain ⟨before, hbefore, rfl⟩ := of_modify_get hj
      split_ifs at hleft ⊢
      · rcases hleft with h | h <;> cases h
      · exact hh.left j before hbefore hleft
    · rw [hstep]
      intro h
      cases h
  | stop i =>
    cases h
    have hstep : pool.step = .stop := hhead
    refine ⟨hh.ioServices, (List.length_modify ..).trans hh.length, hh.threads, hh.unstarted, hpending,
      ?_, ?_, ?_, ?_, ?_, ?_⟩
    · intro j service hj hthread
      obtain ⟨before, hbefore, rfl⟩ := of_modify_get hj
      refine hh.present j before hbefore ?_
      split_ifs at hthread
      · exact hthread
      · exact hthread
    · intro j hj
      rcases hh.created j hj with hrun | ⟨service, hservice, hthread⟩
      · exact .inl (mem_todo hrun nofun)
      · refine .inr ⟨_, modify_get hservice, ?_⟩
        split_ifs
        · exact hthread
        · exact hthread
    · rw [hstep]
      rintro (h | h) <;> cases h
    · intro hstopped j service hj
      obtain ⟨before, hbefore, rfl⟩ := of_modify_get hj
      by_cases hij : i = j
      · rw [if_pos hij]
        exact .inr rfl
      · rw [if_neg hij]
        refine (hh.stopped hstopped j before hbefore).imp_left ?_
        intro hstop
        refine mem_todo hstop ?_
        rintro ⟨⟩
        exact hij rfl
    · intro j service hj hleft
      obtain ⟨before, hbefore, rfl⟩ := of_modify_get hj
      split_ifs at hleft ⊢
      · rfl
      · exact hh.left j before hbefore hleft
    · rw [hstep]
      intro h
      cases h
  | join i =>
    dsimp only [ProxyServer.perform] at h
    split_ifs at h with hthread
    cases h
    obtain ⟨hstep, hi⟩ := hhead
    refine ⟨hh.ioServices, hh.length, hh.threads, hh.unstarted, hpending, hh.present, ?_, hh.running, ?_,
      hh.left, ?_⟩
    · intro j hj
      rcases hh.created j hj with hrun | hcreated
      · exact .inl (mem_todo hrun nofun)
      · exact .inr hcreated
    · intro hstopped j service hj
      rcases hh.stopped hstopped j service hj with hstop | hservice
      · exact .inl (mem_todo hstop nofun)
      · exact .inr hservice
    · intro hfinish j hj
      by_cases hij : i = j
      · subst hij
        obtain ⟨service, hservice, hended⟩ := Option.map_eq_some_iff.mp hthread
        exact .inr ⟨service, hservice, hended⟩
      · refine (hh.joined hfinish j hj).imp_left ?_
        intro hjoin
        refine mem_todo hjoin ?_
        rintro ⟨⟩
        exact hij rfl

theorem Thread.step_present {thread next : Thread} {on : Bool} (h : thread.step on .ended = some next) :
    next ≠ .absent := by
  cases thread with
  | absent | ended => cases h
  | test => cases on <;> cases h <;> nofun
  | pass | closing => cases h; nofun

theorem Held.service {i : ℕ} {service : IoService} (hh : Held n todo pool services)
    (h : services[i]?.bind IoService.step = some service) : Held n todo pool (services.set i service) := by
  obtain ⟨before, hbefore, hstep⟩ := Option.bind_eq_some_iff.mp h
  obtain ⟨thread, hthread, rfl⟩ := Option.map_eq_some_iff.mp hstep
  have hlt := (List.getElem?_eq_some_iff.mp hbefore).1
  have hover := Thread.step_over hthread
  have hpresent : before.thread ≠ .absent := by
    intro habsent
    rw [habsent] at hover
    cases hover
  refine ⟨hh.ioServices, List.length_set.trans hh.length, hh.threads, hh.unstarted, hh.pending, ?_, ?_, ?_, ?_,
    ?_, ?_⟩
  · intro j service hj hthere
    by_cases hij : i = j
    · exact hij ▸ hh.present i before hbefore hpresent
    · rw [List.getElem?_set_ne hij] at hj
      exact hh.present j service hj hthere
  · intro j hj
    by_cases hij : i = j
    · subst hij
      exact .inr ⟨_, List.getElem?_set_self hlt, Thread.step_present hthread⟩
    · rw [List.getElem?_set_ne hij]
      exact hh.created j hj
  · intro hrunning j service hj
    by_cases hij : i = j
    · subst hij
      rw [List.getElem?_set_self hlt] at hj
      cases hj
      exact hh.running hrunning i before hbefore
    · rw [List.getElem?_set_ne hij] at hj
      exact hh.running hrunning j service hj
  · intro hstopped j service hj
    by_cases hij : i = j
    · subst hij
      rw [List.getElem?_set_self hlt] at hj
      cases hj
      exact hh.stopped hstopped i before hbefore
    · rw [List.getElem?_set_ne hij] at hj
      exact hh.stopped hstopped j service hj
  · intro j service hj hleft
    by_cases hij : i = j
    · subst hij
      rw [List.getElem?_set_self hlt] at hj
      cases hj
      rcases Thread.step_left hthread hleft with hleft | hoff
      · exact hh.left i before hbefore hleft
      · simpa using hoff
    · rw [List.getElem?_set_ne hij] at hj
      exact hh.left j service hj hleft
  · intro hfinish j hj
    by_cases hij : i = j
    · subst hij
      rcases hh.joined hfinish i hj with hjoin | ⟨service, hservice, hended⟩
      · exact .inl hjoin
      · rw [hbefore] at hservice
        cases hservice
        rw [hended] at hover
        cases hover
    · rw [List.getElem?_set_ne hij]
      exact hh.joined hfinish j hj

end held

structure Sound (cfg : Config) (s : State) : Prop where
  flags : Flags cfg s
  held : s.main ≠ .done → ∃ pool, s.pool = some pool ∧ pool.step ∈ s.main.steps ∧
    Held cfg.networkThreadNum s.main.todo pool s.services
  ended : s.main = .done → s.pool = none ∧ ∀ service ∈ s.services, service.thread.over = true

theorem sound_initial {cfg : Config} {room : ℕ} {s : State} (h : Initial cfg room s) : Sound cfg s := by
  obtain ⟨pool, hpool, rfl⟩ := h
  refine ⟨flags_start cfg pool room, ?_, ?_⟩
  · intro _
    exact ⟨_, rfl, List.mem_singleton.mpr hpool.2.1, held_start hpool⟩
  · intro h
    cases h

theorem Held.over {n : ℕ} {pool : IoServicePool} {services : List IoService} (hh : Held n [] pool services)
    (hstep : pool.step = .begin ∨ pool.step = .finish) : ∀ service ∈ services, service.thread.over = true := by
  intro service hservice
  obtain ⟨i, hi⟩ := List.mem_iff_getElem?.mp hservice
  by_cases habsent : service.thread = .absent
  · rw [habsent]
    rfl
  · have hthread := hh.present i service hi habsent
    rcases hstep with hstep | hstep
    · rw [hh.unstarted hstep] at hthread
      cases hthread
    · rcases hh.joined hstep i hthread with hjoin | ⟨other, hother, hended⟩
      · cases hjoin
      · rw [hi] at hother
        cases hother
        rw [hended]
        rfl

section sound

variable {cfg : Config} {s t : State}

theorem Sound.begun (hs : Sound cfg s) {pool : IoServicePool} (hmain : s.main ≠ .done) (hpool : s.pool = some pool) :
    pool.step ∈ s.main.steps ∧ Held cfg.networkThreadNum s.main.todo pool s.services := by
  obtain ⟨other, hother, hheld⟩ := hs.held hmain
  rw [hpool] at hother
  cases hother
  exact hheld

theorem Sound.move (hs : Sound cfg s) (hflags : Flags cfg t) (hbefore : s.main ≠ .done) (hmain : t.main ≠ .done)
    (hpool : t.pool = s.pool) (hservices : t.services = s.services) (htodo : t.main.todo = s.main.todo)
    (hsteps : ∀ x ∈ s.main.steps, x ∈ t.main.steps) : Sound cfg t := by
  refine ⟨hflags, ?_, fun h => absurd h hmain⟩
  intro _
  rw [hpool, hservices, htodo]
  obtain ⟨pool, hsome, hstep, hheld⟩ := hs.held hbefore
  exact ⟨pool, hsome, hsteps _ hstep, hheld⟩

theorem sound_main (hs : Sound cfg s) (h : mainStep cfg s = some t) : Sound cfg t := by
  have hflags := flags_main hs.flags h
  obtain ⟨main, flag, pool, services, closeFlags, udp, ip, room⟩ := s
  cases main with
  | construct =>
    dsimp only [mainStep] at h
    split_ifs at h with hip
    · cases room with
      | zero =>
        cases h
        exact hs.move hflags nofun nofun rfl rfl rfl fun _ hx => hx
      | succ room =>
        cases h
        exact hs.move hflags nofun nofun rfl rfl rfl fun _ hx => hx
    · cases h
      exact hs.move hflags nofun nofun rfl rfl rfl fun _ hx => hx
  | raiseFlag =>
    cases h
    exact hs.move hflags nofun nofun rfl rfl rfl fun _ hx => hx
  | startUdp =>
    cases room with
    | zero =>
      cases h
      refine hs.move hflags nofun nofun rfl rfl rfl ?_
      intro x hx
      exact List.mem_cons.mpr (.inl (List.mem_singleton.mp hx))
    | succ room =>
      cases h
      exact hs.move hflags nofun nofun rfl rfl rfl fun _ hx => hx
  | startPool =>
    obtain ⟨pool, rfl, rfl⟩ := Option.map_eq_some_iff.mp h
    obtain ⟨hstep, hheld⟩ := hs.begun nofun rfl
    obtain ⟨hheld, hstep⟩ := hheld.start (List.mem_singleton.mp hstep) room
    exact ⟨hflags, fun _ => ⟨_, rfl, List.mem_singleton.mpr hstep, hheld⟩, nofun⟩
  | starting todo failed =>
    cases todo with
    | nil =>
      cases h
      cases failed with
      | false => exact hs.move hflags nofun nofun rfl rfl rfl fun _ hx => hx
      | true =>
        refine hs.move hflags nofun nofun rfl rfl rfl ?_
        intro x hx
        exact List.mem_cons_of_mem _ hx
    | cons effect todo =>
      obtain ⟨services, hperform, rfl⟩ := Option.map_eq_some_iff.mp h
      obtain ⟨pool, hpool, hstep, hheld⟩ := hs.held nofun
      exact ⟨hflags, fun _ => ⟨pool, hpool, hstep, hheld.perform hperform⟩, nofun⟩
  | lock =>
    cases h
    exact hs.move hflags nofun nofun rfl rfl rfl fun _ hx => hx
  | waiting | done | failed => cases h
  | lowerFlag =>
    cases h
    refine hs.move hflags nofun nofun rfl rfl rfl ?_
    intro x hx
    exact List.mem_cons_of_mem _ hx
  | destroy =>
    cases h
    exact hs.move hflags nofun nofun rfl rfl rfl fun _ hx => hx
  | stopTcp proxy =>
    dsimp only [mainStep] at h
    split_ifs at h
    · cases h
      exact hs.move hflags nofun nofun rfl rfl rfl fun _ hx => hx
    · cases h
      exact hs.move hflags nofun nofun rfl rfl rfl fun _ hx => hx
  | joinUdp =>
    dsimp only [mainStep] at h
    split_ifs at h
    cases h
    exact hs.move hflags nofun nofun rfl rfl rfl fun _ hx => hx
  | joinIp =>
    dsimp only [mainStep] at h
    split_ifs at h
    cases h
    exact hs.move hflags nofun nofun rfl rfl rfl fun _ hx => hx
  | sleep =>
    obtain ⟨pool, rfl, -⟩ := hs.held nofun
    cases h
    exact hs.move hflags nofun nofun rfl rfl rfl fun _ hx => hx
  | stopPool =>
    obtain ⟨pool, rfl, rfl⟩ := Option.map_eq_some_iff.mp h
    obtain ⟨hstep, hheld⟩ := hs.begun nofun rfl
    obtain ⟨hheld, hstep⟩ := hheld.stop (by simpa [Main.steps] using hstep)
    exact ⟨hflags, fun _ => ⟨_, rfl, by simpa [Main.steps] using hstep, hheld⟩, nofun⟩
  | stopping todo =>
    cases todo with
    | nil =>
      cases h
      exact hs.move hflags nofun nofun rfl rfl rfl fun _ hx => hx
    | cons effect todo =>
      obtain ⟨services, hperform, rfl⟩ := Option.map_eq_some_iff.mp h
      obtain ⟨pool, hpool, hstep, hheld⟩ := hs.held nofun
      exact ⟨hflags, fun _ => ⟨pool, hpool, hstep, hheld.perform hperform⟩, nofun⟩
  | joinPool =>
    obtain ⟨pool, rfl, rfl⟩ := Option.map_eq_some_iff.mp h
    obtain ⟨hstep, hheld⟩ := hs.begun nofun rfl
    obtain ⟨hheld, hstep⟩ := hheld.join (by simpa [Main.steps] using hstep)
    exact ⟨hflags, fun _ => ⟨_, rfl, by simpa [Main.steps] using hstep, hheld⟩, nofun⟩
  | joining todo =>
    cases todo with
    | nil =>
      cases h
      exact hs.move hflags nofun nofun rfl rfl rfl fun _ hx => hx
    | cons effect todo =>
      obtain ⟨services, hperform, rfl⟩ := Option.map_eq_some_iff.mp h
      obtain ⟨pool, hpool, hstep, hheld⟩ := hs.held nofun
      exact ⟨hflags, fun _ => ⟨pool, hpool, hstep, hheld.perform hperform⟩, nofun⟩
  | delete =>
    cases h
    obtain ⟨pool, -, hstep, hheld⟩ := hs.held nofun
    exact ⟨hflags, nofun, fun _ => ⟨rfl, hheld.over (by simpa [Main.steps] using hstep)⟩⟩

theorem sound_wake (hs : Sound cfg s) : Sound cfg (wake s) := by
  have hflags := flags_wake hs.flags
  unfold wake at hflags ⊢
  split_ifs at hflags ⊢ with hwaiting
  · apply hs.move hflags
    · rw [hwaiting]
      nofun
    · nofun
    · rfl
    · rfl
    · rw [hwaiting]
      rfl
    · rw [hwaiting]
      exact fun _ hx => hx
  · exact hs

theorem sound_step {e : Event} (hs : Sound cfg s) (h : step cfg s e = some t) : Sound cfg t := by
  have hflags := flags_step hs.flags h
  cases e with
  | main => exact sound_main hs h
  | udp | ip =>
    obtain ⟨thread, -, rfl⟩ := Option.map_eq_some_iff.mp h
    exact ⟨hflags, hs.held, hs.ended⟩
  | service i =>
    obtain ⟨service, hservice, rfl⟩ := Option.map_eq_some_iff.mp h
    refine ⟨hflags, ?_, ?_⟩
    · intro hmain
      obtain ⟨pool, hpool, hstep, hheld⟩ := hs.held hmain
      exact ⟨pool, hpool, hstep, hheld.service hservice⟩
    · intro hmain
      obtain ⟨before, hbefore, hstep⟩ := Option.bind_eq_some_iff.mp hservice
      obtain ⟨thread, hthread, -⟩ := Option.map_eq_some_iff.mp hstep
      have hover := (hs.ended hmain).2 before (List.mem_of_getElem? hbefore)
      rw [Thread.step_over hthread] at hover
      cases hover
  | terminate =>
    cases h
    exact sound_wake hs
  | spurious =>
    dsimp only [step] at h
    split_ifs at h with hwaiting
    cases h
    have hwoken := sound_wake hs
    unfold wake at hwoken
    rwa [if_pos hwaiting] at hwoken

end sound

theorem Flags.all {cfg : Config} {s : State} (hf : Flags cfg s) {told : Bool}
    (hall : ∀ i, i < cfg.proxies → (told = true ↔ i < s.main.told cfg.proxies)) :
    ∀ closeFlag ∈ s.closeFlags, closeFlag = told := by
  intro closeFlag hclose
  obtain ⟨i, hi⟩ := List.mem_iff_getElem?.mp hclose
  have hlt : i < cfg.proxies := hf.length ▸ (List.getElem?_eq_some_iff.mp hi).1
  exact Bool.eq_iff_iff.mpr ((hf.told i closeFlag hi).trans (hall i hlt).symm)

namespace Main

variable {main : Main}

theorem told_up {proxies : ℕ} (h : main.period = .up ∨ main.period = .destroying) : main.told proxies = 0 := by
  cases main with
  | stopTcp | joinUdp | joinIp | sleep | stopPool | stopping | joinPool | joining | delete | done =>
    rcases h with h | h <;> cases h
  | _ => rfl

theorem told_ipOver {proxies : ℕ} (h : main.period = .ipOver) : main.told proxies = proxies := by
  cases main with
  | sleep | stopPool | stopping | joinPool | joining | delete | done => rfl
  | _ => cases h

theorem steps_up {x : IoServicePool.Step} (h : main.period = .up ∨ main.period = .destroying)
    (hx : x ∈ main.steps) : x = .begin ∨ x = .start := by
  cases main with
  | sleep | stopPool | stopping | joinPool | joining | delete | done =>
    rcases h with h | h <;> cases h
  | _ => simp_all [steps]

theorem steps_ipOver {x : IoServicePool.Step} (hx : x ∈ main.steps) (h : ¬ (x = .begin ∨ x = .start)) :
    main.period = .ipOver := by
  cases main with
  | sleep | stopPool | stopping | joinPool | joining | delete | done => rfl
  | _ => simp_all [steps]

end Main

def wholeLife : List Event :=
  List.replicate 7 .main ++ [.udp, .udp, .service 0, .terminate, .service 0] ++ List.replicate 4 .main ++
    [.udp, .udp, .ip, .main, .main] ++ List.replicate 5 .main ++ [.service 0] ++ List.replicate 3 .main

theorem wholeLife_ends : ∃ s, exec (step ⟨1, 1, true⟩) (start ⟨1, 1, true⟩ (.create 1) 3) wholeLife = some s ∧
    s.main = .done := by
  have h : (exec (step ⟨1, 1, true⟩) (start ⟨1, 1, true⟩ (.create 1) 3) wholeLife).map State.main =
      some .done := by decide
  exact Option.map_eq_some_iff.mp h

end TcpUdpProxy.ProxyServer
