import TcpUdpProxy.Shutdown
import TcpUdpProxy.Library.Progress
import Mathlib.Data.Prod.Lex

namespace TcpUdpProxy.ProxyServer

open Execution Progress

def Main.past (main : Main) : Prop := main = .lowerFlag ∨ main.period ≠ .up

def Wakes (s : State) (e : Event) : Prop := s.main = .waiting ∧ (e = .terminate ∨ e = .spurious)

instance (s : State) (e : Event) : Decidable (Wakes s e) := inferInstanceAs (Decidable (_ ∧ _))

def Config.threads (cfg : Config) : ℕ := (if cfg.ipLimited then 1 else 0) + 1 + cfg.networkThreadNum

def Main.need (cfg : Config) : Main → ℕ
  | .construct => cfg.threads
  | .raiseFlag | .startUdp => 1 + cfg.networkThreadNum
  | .startPool => cfg.networkThreadNum
  | _ => 0

structure Roomy (cfg : Config) (s : State) : Prop where
  room : s.main.need cfg ≤ s.room
  starting : ∀ todo failed, s.main = .starting todo failed → failed = false
  failed : s.main ≠ .failed

section wake

variable {cfg : Config} {s t : State}

theorem not_past {main : Main} (hperiod : main.period = .up) (hmain : main ≠ .lowerFlag) : ¬ main.past := by
  rintro (h | h)
  · exact hmain h
  · exact h hperiod

theorem past_kept_main (hpast : s.main.past) (h : mainStep cfg s = some t) : t.main.past := by
  obtain ⟨main, flag, pool, services, closeFlags, udp, ip, room⟩ := s
  cases main with
  | construct | raiseFlag | startUdp | startPool | starting | lock =>
    exact absurd hpast (not_past rfl nofun)
  | waiting | done | failed => cases h
  | lowerFlag | destroy | delete =>
    cases h
    exact .inr nofun
  | stopTcp proxy =>
    dsimp only [mainStep] at h
    split_ifs at h <;> cases h <;> exact .inr nofun
  | joinUdp | joinIp =>
    dsimp only [mainStep] at h
    split_ifs at h
    cases h
    exact .inr nofun
  | sleep =>
    cases h
    cases pool <;> exact .inr nofun
  | stopPool | joinPool =>
    obtain ⟨pool, rfl, rfl⟩ := Option.map_eq_some_iff.mp h
    exact .inr nofun
  | stopping todo | joining todo =>
    cases todo with
    | nil =>
      cases h
      exact .inr nofun
    | cons effect todo =>
      obtain ⟨services, -, rfl⟩ := Option.map_eq_some_iff.mp h
      exact .inr nofun

theorem roomy_past (hpast : s.main.past) : Roomy cfg s := by
  obtain ⟨main, flag, pool, services, closeFlags, udp, ip, room⟩ := s
  cases main with
  | construct | raiseFlag | startUdp | startPool | starting | failed =>
    exact absurd hpast (not_past rfl nofun)
  | _ => exact ⟨Nat.zero_le _, nofun, nofun⟩

theorem past_main (hs : Sound cfg s) (hr : Roomy cfg s) (h : mainStep cfg s = some t) :
    Roomy cfg t ∧ (t.main.past ↔ s.main.past) := by
  by_cases hpast : s.main.past
  · have hkept := past_kept_main hpast h
    exact ⟨roomy_past hkept, iff_of_true hkept hpast⟩
  · obtain ⟨hroom, hstarting, hfailed⟩ := hr
    obtain ⟨main, flag, pool, services, closeFlags, udp, ip, room⟩ := s
    cases main with
    | construct =>
      dsimp only [mainStep] at h
      dsimp only [Main.need, Config.threads] at hroom
      split_ifs at h hroom with hip
      · cases room with
        | zero => omega
        | succ room =>
          cases h
          refine ⟨⟨?_, nofun, nofun⟩, iff_of_false (not_past rfl nofun) hpast⟩
          dsimp only [Main.need]
          omega
      · cases h
        refine ⟨⟨?_, nofun, nofun⟩, iff_of_false (not_past rfl nofun) hpast⟩
        dsimp only [Main.need]
        omega
    | raiseFlag =>
      cases h
      exact ⟨⟨hroom, nofun, nofun⟩, iff_of_false (not_past rfl nofun) hpast⟩
    | startUdp =>
      dsimp only [Main.need] at hroom
      cases room with
      | zero => omega
      | succ room =>
        cases h
        refine ⟨⟨?_, nofun, nofun⟩, iff_of_false (not_past rfl nofun) hpast⟩
        dsimp only [Main.need]
        omega
    | startPool =>
      obtain ⟨pool, rfl, rfl⟩ := Option.map_eq_some_iff.mp h
      obtain ⟨hstep, hheld⟩ := hs.begun nofun rfl
      refine ⟨⟨Nat.zero_le _, ?_, nofun⟩, iff_of_false (not_past rfl nofun) hpast⟩
      rintro todo failed ⟨⟩
      have hlength : pool.ioServices.length ≤ room := by
        rw [hheld.ioServices, List.length_range]
        exact hroom
      exact congrArg Option.isSome (IoServicePool.start_error (List.mem_singleton.mp hstep) hlength)
    | starting todo failed =>
      obtain rfl := hstarting todo failed rfl
      cases todo with
      | nil =>
        cases h
        exact ⟨⟨Nat.zero_le _, nofun, nofun⟩, iff_of_false (not_past rfl nofun) hpast⟩
      | cons effect todo =>
        obtain ⟨services, -, rfl⟩ := Option.map_eq_some_iff.mp h
        refine ⟨⟨Nat.zero_le _, ?_, nofun⟩, iff_of_false (not_past rfl nofun) hpast⟩
        rintro todo failed ⟨⟩
        rfl
    | lock =>
      cases h
      exact ⟨⟨Nat.zero_le _, nofun, nofun⟩, iff_of_false (not_past rfl nofun) hpast⟩
    | waiting | done | failed => cases h
    | lowerFlag => exact absurd (.inl rfl) hpast
    | destroy | stopTcp | joinUdp | joinIp | sleep | stopPool | stopping | joinPool | joining | delete =>
      exact absurd (.inr nofun) hpast

theorem Roomy.move (hr : Roomy cfg s) (hmain : t.main = s.main) (hroom : t.room = s.room) : Roomy cfg t := by
  refine ⟨?_, ?_, ?_⟩
  · rw [hmain, hroom]
    exact hr.room
  · rw [hmain]
    exact hr.starting
  · rw [hmain]
    exact hr.failed

theorem past_step {e : Event} (hs : Sound cfg s) (hr : Roomy cfg s) (h : step cfg s e = some t) :
    Roomy cfg t ∧ (t.main.past ↔ s.main.past ∨ Wakes s e) := by
  have hasleep (hmain : ¬ s.main = .waiting) : s.main.past ↔ s.main.past ∨ Wakes s e :=
    ⟨.inl, fun h => h.elim id fun h => absurd h.1 hmain⟩
  have hother (he : e ≠ .terminate ∧ e ≠ .spurious) : s.main.past ↔ s.main.past ∨ Wakes s e :=
    ⟨.inl, fun h => h.elim id fun h => h.2.elim (absurd · he.1) (absurd · he.2)⟩
  cases e with
  | main =>
    obtain ⟨hr, hpast⟩ := past_main hs hr h
    exact ⟨hr, hpast.trans (hother ⟨nofun, nofun⟩)⟩
  | udp | ip =>
    obtain ⟨thread, -, rfl⟩ := Option.map_eq_some_iff.mp h
    exact ⟨hr.move rfl rfl, hother ⟨nofun, nofun⟩⟩
  | service i =>
    obtain ⟨service, -, rfl⟩ := Option.map_eq_some_iff.mp h
    exact ⟨hr.move rfl rfl, hother ⟨nofun, nofun⟩⟩
  | terminate =>
    cases h
    unfold wake
    split_ifs with hwaiting
    · exact ⟨⟨Nat.zero_le _, nofun, nofun⟩, iff_of_true (.inl rfl) (.inr ⟨hwaiting, .inl rfl⟩)⟩
    · exact ⟨hr, hasleep hwaiting⟩
  | spurious =>
    dsimp only [step] at h
    split_ifs at h with hwaiting
    cases h
    exact ⟨⟨Nat.zero_le _, nofun, nofun⟩, iff_of_true (.inl rfl) (.inr ⟨hwaiting, .inr rfl⟩)⟩

theorem past_iff_woken {es : List Event} (hs : Sound cfg s) (hr : Roomy cfg s)
    (h : exec (step cfg) s es = some t) :
    ¬ t.main.past ↔ ¬ s.main.past ∧ Along (step cfg) (fun u e => ¬ Wakes u e) s es := by
  induction es generalizing s with
  | nil =>
    cases h
    simp
  | cons e es ih =>
    obtain ⟨u, hu, h⟩ := exec_cons_some.mp h
    obtain ⟨hroomy, hpast⟩ := past_step hs hr hu
    rw [ih (sound_step hs hu) hroomy h, along_cons hu, hpast, not_or, and_assoc]

end wake

inductive Party
  | main
  | udp
  | ip
  | service (service : ℕ)
  deriving DecidableEq

def Party.event : Party → Event
  | .main => .main
  | .udp => .udp
  | .ip => .ip
  | .service i => .service i

def Party.own (party : Party) (e : Event) : Prop := e = party.event

def State.thread (s : State) : Party → Thread
  | .main => .absent
  | .udp => s.udp
  | .ip => s.ip
  | .service i => (s.services[i]?.map IoService.thread).getD .absent

def Main.awaits : Main → Option Party
  | .joinUdp => some .udp
  | .joinIp => some .ip
  | .joining (.join i :: _) => some (.service i)
  | _ => none

def helper (s : State) : Party :=
  match s.main.awaits with
  | some party => if (s.thread party).over then .main else party
  | none => .main

def Main.stage : Main → ℕ
  | .lowerFlag => 11
  | .destroy => 10
  | .stopTcp _ => 9
  | .joinUdp => 8
  | .joinIp => 7
  | .sleep => 6
  | .stopPool => 5
  | .stopping _ => 4
  | .joinPool => 3
  | .joining _ => 2
  | .delete => 1
  | _ => 0

def State.rounds (s : State) : ℕ :=
  match s.main with
  | .stopTcp proxy => s.closeFlags.length - proxy
  | main => main.todo.length

def Thread.rank : Thread → ℕ
  | .pass => 3
  | .test => 2
  | .closing => 1
  | .absent | .ended => 0

def rank (s : State) : ℕ ×ₗ ℕ ×ₗ ℕ := toLex (s.main.stage, toLex (s.rounds, (s.thread (helper s)).rank))

section live

variable {cfg : Config} {s t : State}

theorem rank_lt (h : t.main.stage < s.main.stage ∨ t.main.stage = s.main.stage ∧ t.rounds < s.rounds) :
    rank t < rank s := by
  apply Prod.Lex.toLex_lt_toLex.mpr
  rcases h with h | ⟨hsame, h⟩
  · exact .inl h
  · exact .inr ⟨hsame, Prod.Lex.toLex_lt_toLex.mpr (.inl h)⟩

theorem main_descends (hs : Sound cfg s) (hpast : s.main.past) (h : mainStep cfg s = some t) : rank t < rank s := by
  apply rank_lt
  obtain ⟨main, flag, pool, services, closeFlags, udp, ip, room⟩ := s
  cases main with
  | construct | raiseFlag | startUdp | startPool | starting | lock =>
    exact absurd hpast (not_past rfl nofun)
  | waiting | done | failed => cases h
  | lowerFlag | destroy | delete =>
    cases h
    exact .inl (by simp [Main.stage])
  | stopTcp proxy =>
    dsimp only [mainStep] at h
    split_ifs at h with hproxy
    · cases h
      refine .inr ⟨rfl, ?_⟩
      simp only [State.rounds, List.length_set]
      omega
    · cases h
      exact .inl (by simp [Main.stage])
  | joinUdp | joinIp =>
    dsimp only [mainStep] at h
    split_ifs at h
    cases h
    exact .inl (by simp [Main.stage])
  | sleep =>
    cases h
    cases pool <;> exact .inl (by simp [Main.stage])
  | stopPool | joinPool =>
    obtain ⟨pool, rfl, rfl⟩ := Option.map_eq_some_iff.mp h
    exact .inl (by simp [Main.stage])
  | stopping todo | joining todo =>
    cases todo with
    | nil =>
      cases h
      exact .inl (by simp [Main.stage])
    | cons effect todo =>
      obtain ⟨services, -, rfl⟩ := Option.map_eq_some_iff.mp h
      exact .inr ⟨rfl, Nat.lt_succ_self _⟩

theorem Thread.rank_descends {thread next : Thread} {behind : Thread} (hbehind : behind.left)
    (h : thread.step false behind = some next) : next.rank < thread.rank := by
  cases thread with
  | absent | ended => cases h
  | test =>
    cases h
    rcases hbehind with rfl | rfl <;> decide
  | pass | closing =>
    cases h
    decide

def State.on (s : State) : Party → Bool
  | .main => false
  | .udp | .ip => s.runningFlag
  | .service i => !(s.services[i]?.map IoService.stopped).getD true

def Party.behind : Party → Thread
  | .udp => .closing
  | _ => .ended

theorem worker_step {party : Party} (hparty : party ≠ .main) (h : step cfg s party.event = some t) :
    t.main = s.main ∧ t.closeFlags = s.closeFlags ∧ (∀ other, other ≠ party → t.thread other = s.thread other) ∧
      (s.thread party).step (s.on party) party.behind = some (t.thread party) := by
  cases party with
  | main => exact absurd rfl hparty
  | udp | ip =>
    obtain ⟨thread, hthread, rfl⟩ := Option.map_eq_some_iff.mp h
    refine ⟨rfl, rfl, ?_, hthread⟩
    intro other hother
    cases other <;> first | rfl | exact absurd rfl hother
  | service i =>
    obtain ⟨service, hservice, rfl⟩ := Option.map_eq_some_iff.mp h
    obtain ⟨before, hbefore, hstep⟩ := Option.bind_eq_some_iff.mp hservice
    obtain ⟨thread, hthread, rfl⟩ := Option.map_eq_some_iff.mp hstep
    have hlt := (List.getElem?_eq_some_iff.mp hbefore).1
    refine ⟨rfl, rfl, ?_, ?_⟩
    · intro other hother
      cases other with
      | main | udp | ip => rfl
      | service j =>
        have hij : i ≠ j := by
          rintro rfl
          exact hother rfl
        unfold State.thread
        dsimp only
        rw [List.getElem?_set_ne hij]
    · unfold State.thread State.on
      dsimp only
      rw [List.getElem?_set_self hlt, hbefore]
      exact hthread

theorem worker_enabled (cfg : Config) {party : Party} (hover : (s.thread party).over = false) :
    ∃ t, step cfg s party.event = some t := by
  have hsome (thread : Thread) (on : Bool) (behind : Thread) (hover : thread.over = false) :
      ∃ next, thread.step on behind = some next := by
    cases thread with
    | absent | ended => cases hover
    | test | pass | closing => exact ⟨_, rfl⟩
  cases party with
  | main => cases hover
  | udp =>
    obtain ⟨next, hnext⟩ := hsome s.udp s.runningFlag .closing hover
    exact ⟨_, congrArg (Option.map _) hnext⟩
  | ip =>
    obtain ⟨next, hnext⟩ := hsome s.ip s.runningFlag .ended hover
    exact ⟨_, congrArg (Option.map _) hnext⟩
  | service i =>
    cases hservice : s.services[i]? with
    | none =>
      unfold State.thread at hover
      dsimp only at hover
      rw [hservice] at hover
      cases hover
    | some service =>
      have hthread : service.thread.over = false := by
        unfold State.thread at hover
        dsimp only at hover
        rwa [hservice] at hover
      obtain ⟨next, hnext⟩ := hsome service.thread (!service.stopped) .ended hthread
      have hstep : service.step = some { service with thread := next } := congrArg (Option.map _) hnext
      refine ⟨{ s with services := s.services.set i { service with thread := next } }, ?_⟩
      dsimp only [Party.event, step]
      rw [hservice, Option.bind_some, hstep]
      rfl

theorem awaited {party : Party} (hs : Sound cfg s) (h : s.main.awaits = some party) :
    s.on party = false ∧ (∀ i, party = .service i → s.thread party ≠ .absent) := by
  obtain ⟨main, flag, pool, services, closeFlags, udp, ip, room⟩ := s
  cases main with
  | joinUdp | joinIp =>
    cases h
    exact ⟨hs.flags.lowered nofun nofun, nofun⟩
  | joining todo =>
    obtain ⟨pool, -, -, hheld⟩ := hs.held nofun
    rcases todo with _ | ⟨⟨i⟩ | ⟨i⟩ | ⟨i⟩, todo⟩
    · cases h
    · cases h
    · cases h
    · cases h
      obtain ⟨hstep, hi⟩ := hheld.pending _ (List.mem_cons_self ..)
      obtain hrun | ⟨service, hservice, hthread⟩ := hheld.created i hi
      · have hstart := (hheld.pending _ hrun).1
        rw [hstep] at hstart
        cases hstart
      · dsimp only at hservice
        constructor
        · rcases hheld.stopped (.inr hstep) i service hservice with hstop | hstopped
          · have hstart : pool.step = .stop := hheld.pending _ hstop
            rw [hstep] at hstart
            cases hstart
          · unfold State.on
            dsimp only
            rw [hservice]
            simpa using hstopped
        · intro j _
          unfold State.thread
          dsimp only
          rw [hservice]
          exact hthread
  | _ => cases h

theorem main_enabled (hs : Sound cfg s) (hpast : s.main.past) (hdone : s.main ≠ .done)
    (hover : ∀ party, s.main.awaits = some party → (s.thread party).over = true) :
    ∃ t, mainStep cfg s = some t := by
  have hpresent (party : Party) (h : s.main.awaits = some party) := awaited hs h
  obtain ⟨pool, hpool, hstep, hheld⟩ := hs.held hdone
  obtain ⟨main, flag, pool, services, closeFlags, udp, ip, room⟩ := s
  dsimp only at hpool
  subst hpool
  cases main with
  | construct | raiseFlag | startUdp | startPool | starting | lock | waiting | failed =>
    exact absurd hpast (not_past rfl nofun)
  | done => exact absurd rfl hdone
  | lowerFlag | destroy | sleep | stopPool | joinPool | delete => exact ⟨_, rfl⟩
  | stopTcp proxy =>
    dsimp only [mainStep]
    split_ifs
    · exact ⟨_, rfl⟩
    · exact ⟨_, rfl⟩
  | joinUdp => exact ⟨_, if_pos (hover _ rfl)⟩
  | joinIp => exact ⟨_, if_pos (hover _ rfl)⟩
  | stopping todo =>
    rcases todo with _ | ⟨effect, todo⟩
    · exact ⟨_, rfl⟩
    · have hpending := hheld.pending effect (List.mem_cons_self ..)
      cases effect with
      | run i => simp_all [Pending, Main.steps]
      | stop i => exact ⟨_, rfl⟩
      | join i => simp_all [Pending, Main.steps]
  | joining todo =>
    rcases todo with _ | ⟨effect, todo⟩
    · exact ⟨_, rfl⟩
    · have hpending := hheld.pending effect (List.mem_cons_self ..)
      cases effect with
      | run i => simp_all [Pending, Main.steps]
      | stop i => simp_all [Pending, Main.steps]
      | join i =>
        have hover := hover (.service i) rfl
        have hpresent := (hpresent (.service i) rfl).2 i rfl
        have hended : services[i]?.map IoService.thread = some .ended := by
          unfold State.thread at hover hpresent
          dsimp only at hover hpresent
          cases hthread : services[i]?.map IoService.thread with
          | none =>
            rw [hthread] at hpresent
            exact absurd rfl hpresent
          | some thread =>
            rw [hthread, Option.getD_some] at hover hpresent
            cases thread with
            | absent => exact absurd rfl hpresent
            | ended => rfl
            | test | pass | closing => cases hover
        exact ⟨_, congrArg (Option.map _) (if_pos hended)⟩

theorem helper_eq (s : State) : (helper s = .main ∧
      ∀ party, s.main.awaits = some party → (s.thread party).over = true) ∨
    s.main.awaits = some (helper s) ∧ (s.thread (helper s)).over = false := by
  unfold helper
  cases s.main.awaits with
  | none => exact .inl ⟨rfl, nofun⟩
  | some party =>
    dsimp only
    split_ifs with hover
    · refine .inl ⟨rfl, ?_⟩
      rintro other ⟨⟩
      exact hover
    · exact .inr ⟨rfl, Bool.eq_false_iff.mpr hover⟩

theorem helper_enabled (hs : Sound cfg s) (hpast : s.main.past) (hdone : s.main ≠ .done) :
    Enabled (step cfg) (helper s).own s := by
  rcases helper_eq s with ⟨hmain, hover⟩ | ⟨-, hover⟩
  · obtain ⟨t, ht⟩ := main_enabled hs hpast hdone hover
    exact ⟨.main, t, congrArg Party.event hmain.symm, ht⟩
  · obtain ⟨t, ht⟩ := worker_enabled cfg hover
    exact ⟨_, t, rfl, ht⟩

theorem Party.behind_left (party : Party) : party.behind.left := by
  cases party with
  | udp => exact .inl rfl
  | main | ip | service => exact .inr rfl

theorem worker_descends {party : Party} (hs : Sound cfg s) (hparty : party ≠ .main)
    (h : step cfg s party.event = some t) :
    rank t < rank s ∨ rank t = rank s ∧ helper t = helper s ∧ helper s ≠ party := by
  obtain ⟨hmain, hclose, hothers, hstep⟩ := worker_step hparty h
  have hstage : t.main.stage = s.main.stage := congrArg Main.stage hmain
  have hrounds : t.rounds = s.rounds := by
    unfold State.rounds
    rw [hmain, hclose]
  by_cases hhelper : helper s = party
  · left
    rcases helper_eq s with ⟨hself, -⟩ | ⟨hawaits, hover⟩
    · exact absurd (hhelper.symm.trans hself) hparty
    · rw [hhelper] at hawaits hover
      rw [(awaited hs hawaits).1] at hstep
      have hless := Thread.rank_descends party.behind_left hstep
      have hnext : (t.thread (helper t)).rank ≤ (t.thread party).rank := by
        rcases helper_eq t with ⟨hself, -⟩ | ⟨hother, -⟩
        · rw [hself]
          exact Nat.zero_le _
        · rw [hmain, hawaits] at hother
          rw [← Option.some.inj hother]
      unfold rank
      rw [hstage, hrounds, hhelper]
      apply Prod.Lex.toLex_lt_toLex.mpr
      exact .inr ⟨rfl, Prod.Lex.toLex_lt_toLex.mpr (.inr ⟨rfl, hnext.trans_lt hless⟩)⟩
  · right
    have hsame : helper t = helper s := by
      unfold helper
      rw [hmain]
      cases hawaits : s.main.awaits with
      | none => rfl
      | some other =>
        have hother : other ≠ party := by
          rintro rfl
          apply hhelper
          unfold helper
          rw [hawaits]
          exact if_neg (by rw [Thread.step_over hstep]; decide)
        dsimp only
        rw [hothers other hother]
    refine ⟨?_, hsame, hhelper⟩
    unfold rank
    rw [hstage, hrounds, hsame, hothers _ hhelper]

theorem past_not_waiting (hpast : s.main.past) : s.main ≠ .waiting := by
  intro h
  rw [h] at hpast
  exact absurd hpast (not_past rfl nofun)

theorem rank_step {e : Event} (hs : Sound cfg s) (hpast : s.main.past) (h : step cfg s e = some t) :
    rank t < rank s ∨ rank t ≤ rank s ∧ helper t = helper s ∧ ¬ (helper s).own e := by
  have hworker (party : Party) (hparty : party ≠ .main) (h : step cfg s party.event = some t)
      (hinj : ∀ other : Party, other.event = party.event → other = party) :
      rank t < rank s ∨ rank t ≤ rank s ∧ helper t = helper s ∧ ¬ (helper s).own party.event := by
    refine (worker_descends hs hparty h).imp_right ?_
    rintro ⟨hrank, hsame, hhelper⟩
    exact ⟨hrank.le, hsame, fun hown => hhelper (hinj _ hown.symm)⟩
  have hinj : ∀ party other : Party, other.event = party.event → other = party := by
    rintro (_ | _ | _ | i) (_ | _ | _ | j) h <;> cases h <;> rfl
  cases e with
  | main => exact .inl (main_descends hs hpast h)
  | udp => exact hworker .udp nofun h (hinj _)
  | ip => exact hworker .ip nofun h (hinj _)
  | service i => exact hworker (.service i) nofun h (hinj _)
  | terminate =>
    cases h
    have hwake : wake s = s := if_neg (past_not_waiting hpast)
    rw [hwake]
    refine .inr ⟨le_refl _, rfl, ?_⟩
    intro hown
    unfold Party.own at hown
    cases hparty : helper s <;> rw [hparty] at hown <;> cases hown
  | spurious =>
    dsimp only [step] at h
    rw [if_neg (past_not_waiting hpast)] at h
    cases h

theorem past_kept {e : Event} (hpast : s.main.past) (h : step cfg s e = some t) : t.main.past := by
  cases e with
  | main => exact past_kept_main hpast h
  | udp | ip | service =>
    obtain ⟨_, -, rfl⟩ := Option.map_eq_some_iff.mp h
    exact hpast
  | terminate =>
    cases h
    unfold wake
    rwa [if_neg (past_not_waiting hpast)]
  | spurious =>
    dsimp only [step] at h
    rw [if_neg (past_not_waiting hpast)] at h
    cases h

theorem done_kept {e : Event} (hdone : s.main = .done) (h : step cfg s e = some t) :
    t.main = .done := by
  have hpast : s.main.past := by
    rw [hdone]
    exact .inr nofun
  cases e with
  | main =>
    dsimp only [step, mainStep] at h
    rw [hdone] at h
    cases h
  | udp | ip | service =>
    obtain ⟨_, -, rfl⟩ := Option.map_eq_some_iff.mp h
    exact hdone
  | terminate =>
    cases h
    unfold wake
    rwa [if_neg (past_not_waiting hpast)]
  | spurious =>
    dsimp only [step] at h
    rw [if_neg (past_not_waiting hpast)] at h
    cases h

theorem done_disabled (hs : Sound cfg s) (hdone : s.main = .done) (party : Party) :
    ¬ Enabled (step cfg) party.own s := by
  rintro ⟨e, t, rfl, h⟩
  by_cases hparty : party = .main
  · subst hparty
    dsimp only [Party.event, step, mainStep] at h
    rw [hdone] at h
    cases h
  · have hstep := Thread.step_over (worker_step hparty h).2.2.2
    have hperiod : s.main.period = .ipOver := by
      rw [hdone]
      rfl
    have hover : (s.thread party).over = true := by
      cases party with
      | main => exact absurd rfl hparty
      | udp => exact hs.flags.udpOver (.inr hperiod)
      | ip => exact hs.flags.ipOver hperiod
      | service i =>
        unfold State.thread
        dsimp only
        cases hservice : s.services[i]? with
        | none => rfl
        | some service => exact (hs.ended hdone).2 service (List.mem_of_getElem? hservice)
    rw [hover] at hstep
    cases hstep

def Leaving (cfg : Config) (s : State) : Prop := Sound cfg s ∧ s.main.past

end live

theorem shutdown_completes {cfg : Config} {room : ℕ} (r : Run (step cfg))
    (hstart : Reachable (step cfg) (Initial cfg room) (r.state 0)) (hpast : (r.state 0).main.past)
    (hfair : ∀ party : Party, r.Fair party.own) : ∃ n, ∀ m, n ≤ m → (r.state m).main = .done := by
  have hsound : Sound cfg (r.state 0) := hstart.invariant (fun _ => sound_initial) fun _ _ _ => sound_step
  have hinv : ∀ n, Leaving cfg (r.state n) := by
    refine r.invariant (I := Leaving cfg) ?_ ⟨hsound, hpast⟩
    intro s e t hs h
    exact ⟨sound_step hs.1 h, past_kept hs.2 h⟩
  have hoften : r.Often fun s => s.main = .done := by
    apply r.often_of_rank Party.own helper rank hinv hfair
    · intro s hs hdone
      exact helper_enabled hs.1 hs.2 hdone
    · intro s e t hs hdone h
      exact .inr (rank_step hs.1 hs.2 h)
  obtain ⟨n, -, hn⟩ := hoften 0
  refine ⟨n, ?_⟩
  intro m hm
  induction m, hm using Nat.le_induction with
  | base => exact hn
  | succ m hm ih => exact done_kept ih (r.next m)

theorem shutdown_completes_wholeLife : ∃ r : Run (step ⟨1, 1, true⟩),
    (r.state 0).main = .lowerFlag ∧ ∃ n, ∀ m, n ≤ m → (r.state m).main = .done := by
  obtain ⟨t, hrun, hdone⟩ := wholeLife_ends
  have hsplit : wholeLife = wholeLife.take 11 ++ wholeLife.drop 11 := (List.take_append_drop 11 _).symm
  rw [hsplit] at hrun
  obtain ⟨s, hs, hrun⟩ := exec_append_some.mp hrun
  have hmain : s.main = .lowerFlag := by
    have h : (exec (step ⟨1, 1, true⟩) (start ⟨1, 1, true⟩ (.create 1) 3) (wholeLife.take 11)).map State.main =
        some .lowerFlag := by decide
    rw [hs] at h
    exact Option.some.inj h
  have hreach : Reachable (step ⟨1, 1, true⟩) (Initial ⟨1, 1, true⟩ 3) s :=
    ⟨_, _, ⟨.create 1, ⟨rfl, rfl, rfl⟩, rfl⟩, hs⟩
  have hidle : step ⟨1, 1, true⟩ t .terminate = some t := by
    refine congrArg some (if_neg ?_)
    rw [hdone]
    nofun
  have hsound : Sound ⟨1, 1, true⟩ s := hreach.invariant (fun _ => sound_initial) fun _ _ _ => sound_step
  have hend : Sound ⟨1, 1, true⟩ t := exec_invariant (fun _ _ _ => sound_step) hrun hsound
  refine ⟨.ending hrun hidle, hmain, shutdown_completes (.ending hrun hidle) hreach (.inl hmain) ?_⟩
  intro party
  exact Run.ending_fair hrun hidle (done_disabled hend hdone party)

end TcpUdpProxy.ProxyServer
