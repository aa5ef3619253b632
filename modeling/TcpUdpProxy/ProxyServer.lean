import TcpUdpProxy.IoServicePool
import TcpUdpProxy.Library.Execution

/-!
The life of the server: `main` from the constructor of `ProxyServer` to the end of its destructor, among
the threads that it creates and the signals that wake it up.
-/

namespace TcpUdpProxy.ProxyServer

open Execution

/-- What `init` has read: the size of the pool, how many `TcpProxy` it has started, and whether the
clients are limited. -/
structure Config where
  networkThreadNum : ℕ
  proxies : ℕ
  ipLimited : Bool

/-- A thread between the tests of its loop. The thread of the `UdpProxyServer` closes its endpoints
behind the loop. -/
inductive Thread
  | absent
  | test
  | pass
  | closing
  | ended
  deriving DecidableEq

structure IoService where
  stopped : Bool
  thread : Thread
  deriving DecidableEq

/-- What `main` comes to next; a list holds what is left of a loop over the pool. -/
inductive Main
  | construct
  | raiseFlag
  | startUdp
  | startPool
  | starting (todo : List IoServicePool.Effect) (failed : Bool)
  | lock
  | waiting
  | lowerFlag
  | destroy
  | stopTcp (proxy : ℕ)
  | joinUdp
  | joinIp
  | sleep
  | stopPool
  | stopping (todo : List IoServicePool.Effect)
  | joinPool
  | joining (todo : List IoServicePool.Effect)
  | delete
  | done
  | failed
  deriving DecidableEq

structure State where
  main : Main
  runningFlag : Bool
  pool : Option IoServicePool
  services : List IoService
  closeFlags : List Bool
  udp : Thread
  ip : Thread
  room : ℕ

inductive Event
  | main
  | udp
  | ip
  | service (service : ℕ)
  | terminate
  | spurious
  deriving DecidableEq

/-- The constructor of `ServerArgsBase` sets the flag. -/
def start (cfg : Config) (pool : IoServicePool) (room : ℕ) : State where
  main := .construct
  runningFlag := true
  pool := some pool
  services := List.replicate cfg.networkThreadNum ⟨false, .absent⟩
  closeFlags := List.replicate cfg.proxies false
  udp := .absent
  ip := .absent
  room := room

def Initial (cfg : Config) (room : ℕ) (s : State) : Prop :=
  ∃ pool : IoServicePool, pool.Fresh cfg.networkThreadNum ∧ s = start cfg pool room

def configured (networkThreadNum : ℕ) (placed : SharedData.Placed) : Config where
  networkThreadNum := networkThreadNum
  proxies := placed.state.rules.proxies.length
  ipLimited := 0 < placed.state.vars.ipSendBandwidth ∨ 0 < placed.state.vars.ipRecvBandwidth

theorem initial_configured {cfg : SharedData.Config} {n : ℕ} {vars : SharedData.Vars}
    {lines : List SharedData.Line} {placed : SharedData.Placed}
    (h : SharedData.runOn cfg n vars lines = .ok placed) (room : ℕ) :
    Initial (configured n placed) room (start (configured n placed) placed.pool room) :=
  ⟨placed.pool, SharedData.runOn_fresh h, rfl⟩

def IoService.stop (service : IoService) : IoService := { service with stopped := true }

def IoService.run (service : IoService) : IoService := { service with thread := .test }

/-- Joining an absent thread is joining an empty group. -/
def Thread.over : Thread → Bool
  | .absent | .ended => true
  | _ => false

def perform (services : List IoService) : IoServicePool.Effect → Option (List IoService)
  | .run i => some (services.modify i .run)
  | .stop i => some (services.modify i .stop)
  | .join i => if services[i]?.map IoService.thread = some .ended then some services else none

/-- An exception in `ProxyServer()` leaves no object to destroy; one in `run` goes through the destructor. -/
def mainStep (cfg : Config) (s : State) : Option State :=
  match s.main with
  | .construct =>
    if cfg.ipLimited then
      match s.room with
      | 0 => some { s with main := .failed }
      | room + 1 => some { s with main := .raiseFlag, ip := .test, room := room }
    else some { s with main := .raiseFlag }
  | .raiseFlag => some { s with main := .startUdp, runningFlag := true }
  | .startUdp =>
    match s.room with
    | 0 => some { s with main := .destroy }
    | room + 1 => some { s with main := .startPool, udp := .test, room := room }
  | .startPool => s.pool.map fun pool =>
      let (pool, todo, error) := pool.start s.room
      { s with main := .starting todo error.isSome, pool := some pool }
  | .starting (effect :: todo) failed => (perform s.services effect).map fun services =>
      { s with main := .starting todo failed, services := services }
  | .starting [] failed => some { s with main := if failed then .destroy else .lock }
  | .lock => some { s with main := .waiting }
  | .waiting => none
  | .lowerFlag => some { s with main := .destroy, runningFlag := false }
  | .destroy => some { s with main := .stopTcp 0, runningFlag := false }
  | .stopTcp proxy =>
    if proxy < s.closeFlags.length then
      some { s with main := .stopTcp (proxy + 1), closeFlags := s.closeFlags.set proxy true }
    else some { s with main := .joinUdp }
  | .joinUdp => if s.udp.over then some { s with main := .joinIp } else none
  | .joinIp => if s.ip.over then some { s with main := .sleep } else none
  | .sleep => some { s with main := if s.pool.isSome then .stopPool else .done }
  | .stopPool => s.pool.map fun pool =>
      let (pool, todo) := pool.stop
      { s with main := .stopping todo, pool := some pool }
  | .stopping (effect :: todo) => (perform s.services effect).map fun services =>
      { s with main := .stopping todo, services := services }
  | .stopping [] => some { s with main := .joinPool }
  | .joinPool => s.pool.map fun pool =>
      let (pool, todo) := pool.join
      { s with main := .joining todo, pool := some pool }
  | .joining (effect :: todo) => (perform s.services effect).map fun services =>
      { s with main := .joining todo, services := services }
  | .joining [] => some { s with main := .delete }
  | .delete => some { s with main := .done, pool := none }
  | .done => none
  | .failed => none

def Thread.step (thread : Thread) (on : Bool) (behind : Thread) : Option Thread :=
  match thread with
  | .absent => none
  | .test => some (if on then .pass else behind)
  | .pass => some .test
  | .closing => some .ended
  | .ended => none

def IoService.step (service : IoService) : Option IoService :=
  (service.thread.step (!service.stopped) .ended).map fun thread => { service with thread := thread }

def wake (s : State) : State := if s.main = .waiting then { s with main := .lowerFlag } else s

def step (cfg : Config) (s : State) : Event → Option State
  | .main => mainStep cfg s
  | .udp => (s.udp.step s.runningFlag .closing).map fun thread => { s with udp := thread }
  | .ip => (s.ip.step s.runningFlag .ended).map fun thread => { s with ip := thread }
  | .service i => (s.services[i]?.bind IoService.step).map fun service =>
      { s with services := s.services.set i service }
  | .terminate => some (wake s)
  | .spurious => if s.main = .waiting then some { s with main := .lowerFlag } else none

end TcpUdpProxy.ProxyServer
