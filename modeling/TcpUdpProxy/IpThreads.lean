import TcpUdpProxy.IpProxy
import TcpUdpProxy.Library.Execution
import Mathlib.Data.List.AList
import Mathlib.Data.Multiset.AddSub

/-!
`IPProxies` and the threads that use it. A thread matters here while it is inside a critical
section, so the owners of the two kinds of mutex are the states of the threads; two sections
that share no mutex interleave freely, and `++`/`--` of `ref_cnt` are a read and a later write.
-/

namespace TcpUdpProxy.IpThreads

abbrev EntryId := ℕ

inductive TableSection
  | getIPProxy (entry : EntryId) (read : Option ℤ)
  | routine (bytes : PairId → ℤ) (todo deleteProxies : List Address)

/-- `entryMtx e` is the destructor in its section of `mtx` of `e`, with the value it has read;
`holders` are the `client_ip` of the live objects. -/
structure World where
  addrs : AList fun _ : Address => EntryId
  entries : EntryId → IPProxy
  nextEntry : EntryId
  mtx : Option TableSection
  entryMtx : EntryId → Option (Option ℤ)
  holders : Multiset EntryId

inductive Event
  | getLock (ipAddr : Address)
  | getRead
  | getWrite
  | releaseLock (entry : EntryId)
  | releaseRead (entry : EntryId)
  | releaseWrite (entry : EntryId)
  | routineLock (sinceFlush : Msec)
  | routineVisit (ipAddr : Address)
  | routineErase
  | routineUnlock
  | charge (entry : EntryId) (direction : PairId) (amount : ℤ)
  deriving DecidableEq

def World.setRefCnt (w : World) (e : EntryId) (refCnt : ℤ) : World :=
  { w with entries := Function.update w.entries e { w.entries e with refCnt := refCnt } }

def World.find (w : World) (ipAddr : Address) : EntryId × World :=
  match w.addrs.lookup ipAddr with
  | some e => (e, w)
  | none =>
    (w.nextEntry, { w with
      addrs := w.addrs.insert ipAddr w.nextEntry
      entries := Function.update w.entries w.nextEntry IPProxy.create
      nextEntry := w.nextEntry + 1 })

def getLock (bandwidth : PairId → ℤ) (ipAddr : Address) (w : World) : Option World :=
  -- without a limit the object gets a null `client_ip` and is no holder
  if bandwidth 0 = 0 ∧ bandwidth 1 = 0 then some w
  else if w.mtx.isNone then
    let (e, w) := w.find ipAddr
    some { w with mtx := some (.getIPProxy e none) }
  else none

def getRead (w : World) : Option World :=
  match w.mtx with
  | some (.getIPProxy e none) =>
    some { w with mtx := some (.getIPProxy e (some (w.entries e).refCnt)) }
  | _ => none

def getWrite (w : World) : Option World :=
  match w.mtx with
  | some (.getIPProxy e (some refCnt)) =>
    some { w.setRefCnt e (refCnt + 1) with mtx := none, holders := e ::ₘ w.holders }
  | _ => none

def releaseLock (e : EntryId) (w : World) : Option World :=
  if e ∈ w.holders ∧ w.entryMtx e = none then
    some { w with entryMtx := Function.update w.entryMtx e (some none) }
  else none

def releaseRead (e : EntryId) (w : World) : Option World :=
  if w.entryMtx e = some none then
    some { w with entryMtx := Function.update w.entryMtx e (some (some (w.entries e).refCnt)) }
  else none

def releaseWrite (e : EntryId) (w : World) : Option World :=
  match w.entryMtx e with
  | some (some refCnt) =>
    some { w.setRefCnt e (refCnt - 1) with
      entryMtx := Function.update w.entryMtx e none, holders := w.holders.erase e }
  | _ => none

def routineLock (bandwidth : PairId → ℤ) (sinceFlush : Msec) (w : World) : Option World :=
  let interval := toInt sinceFlush
  if w.mtx.isNone ∧ (0 < bandwidth 0 ∨ 0 < bandwidth 1) ∧ 0 < interval then
    some { w with mtx := some (.routine (ipCredit bandwidth interval) w.addrs.keys []) }
  else none

def refill (bytes : PairId → ℤ) (ip : IPProxy) : IPProxy :=
  { ip with availBytes := fun i =>
      if ip.availBytes i < 0 then ip.availBytes i + bytes i else ip.availBytes i }

/-- One round of the loop over `addrs`; any address that is left may be the next one. -/
def routineVisit (ipAddr : Address) (w : World) : Option World :=
  match w.mtx, w.addrs.lookup ipAddr with
  | some (.routine bytes todo deleteProxies), some e =>
    if ipAddr ∈ todo ∧ w.entryMtx e = none then
      if (w.entries e).refCnt ≤ 0 then
        some { w with mtx := some (.routine bytes (todo.erase ipAddr) (deleteProxies ++ [ipAddr])) }
      else
        some { w with
          entries := Function.update w.entries e (refill bytes (w.entries e))
          mtx := some (.routine bytes (todo.erase ipAddr) deleteProxies) }
    else none
  | _, _ => none

def routineErase (w : World) : Option World :=
  match w.mtx with
  | some (.routine bytes [] (a :: deleteProxies)) =>
    some { w with addrs := w.addrs.erase a, mtx := some (.routine bytes [] deleteProxies) }
  | _ => none

def routineUnlock (w : World) : Option World :=
  match w.mtx with
  | some (.routine _ [] []) => some { w with mtx := none }
  | _ => none

def charge (e : EntryId) (direction : PairId) (amount : ℤ) (w : World) : Option World :=
  if e ∈ w.holders ∧ w.entryMtx e = none then
    some { w with entries := Function.update w.entries e ((w.entries e).charge direction amount) }
  else none

def step (bandwidth : PairId → ℤ) (w : World) : Event → Option World
  | .getLock ipAddr => getLock bandwidth ipAddr w
  | .getRead => getRead w
  | .getWrite => getWrite w
  | .releaseLock e => releaseLock e w
  | .releaseRead e => releaseRead e w
  | .releaseWrite e => releaseWrite e w
  | .routineLock sinceFlush => routineLock bandwidth sinceFlush w
  | .routineVisit ipAddr => routineVisit ipAddr w
  | .routineErase => routineErase w
  | .routineUnlock => routineUnlock w
  | .charge e direction amount => charge e direction amount w

def start : World := ⟨∅, fun _ => IPProxy.create, 0, none, fun _ => none, 0⟩

end TcpUdpProxy.IpThreads
