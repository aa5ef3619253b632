import TcpUdpProxy.IpThreads
import TcpUdpProxy.Library.AssociationList
import TcpUdpProxy.Library.SharedCounter

namespace TcpUdpProxy.IpThreads

open AssociationList Execution

def getting : Option TableSection → Option EntryId
  | some (.getIPProxy e _) => some e
  | _ => none

def raising (mtx : Option TableSection) (e : EntryId) : Option ℤ :=
  match mtx with
  | some (.getIPProxy e' read) => if e' = e then read else none
  | _ => none

def World.counter (w : World) (e : EntryId) : SharedCounter.State :=
  ⟨(w.entries e).refCnt, w.holders.count e, raising w.mtx e, (w.entryMtx e).join⟩

def World.Idle (w : World) (e : EntryId) : Prop :=
  (∀ read, w.mtx ≠ some (.getIPProxy e read)) ∧ w.entryMtx e = none

/-- No update of a count reads it between the read and the write of another one. -/
def ReadsAlone (w : World) : Event → Prop
  | .getRead => ∀ e ∈ getting w.mtx, (w.entryMtx e).join = none
  | .releaseRead e => raising w.mtx e = none
  | _ => True

instance (w : World) : ∀ ev, Decidable (ReadsAlone w ev)
  | .getRead => inferInstanceAs (Decidable (∀ e ∈ getting w.mtx, (w.entryMtx e).join = none))
  | .releaseRead e => inferInstanceAs (Decidable (raising w.mtx e = none))
  | .getLock _ | .getWrite | .releaseLock _ | .releaseWrite _ | .routineLock _ | .routineVisit _
  | .routineErase | .routineUnlock | .charge .. => isTrue trivial

inductive Stepped (bandwidth : PairId → ℤ) (w : World) : Event → World → Prop
  | unlimited {a} (h : bandwidth 0 = 0 ∧ bandwidth 1 = 0) : Stepped bandwidth w (.getLock a) w
  | found {a e} (hmtx : w.mtx = none) (h : w.addrs.lookup a = some e) :
      Stepped bandwidth w (.getLock a) { w with mtx := some (.getIPProxy e none) }
  | made {a} (hmtx : w.mtx = none) (h : w.addrs.lookup a = none) :
      Stepped bandwidth w (.getLock a) { w with
        addrs := w.addrs.insert a w.nextEntry
        entries := Function.update w.entries w.nextEntry IPProxy.create
        nextEntry := w.nextEntry + 1
        mtx := some (.getIPProxy w.nextEntry none) }
  | getRead {e} (hmtx : w.mtx = some (.getIPProxy e none)) :
      Stepped bandwidth w .getRead
        { w with mtx := some (.getIPProxy e (some (w.entries e).refCnt)) }
  | getWrite {e v} (hmtx : w.mtx = some (.getIPProxy e (some v))) :
      Stepped bandwidth w .getWrite
        { w.setRefCnt e (v + 1) with mtx := none, holders := e ::ₘ w.holders }
  | releaseLock {e} (he : e ∈ w.holders) (hmtx : w.entryMtx e = none) :
      Stepped bandwidth w (.releaseLock e)
        { w with entryMtx := Function.update w.entryMtx e (some none) }
  | releaseRead {e} (hmtx : w.entryMtx e = some none) :
      Stepped bandwidth w (.releaseRead e)
        { w with entryMtx := Function.update w.entryMtx e (some (some (w.entries e).refCnt)) }
  | releaseWrite {e v} (hmtx : w.entryMtx e = some (some v)) :
      Stepped bandwidth w (.releaseWrite e) { w.setRefCnt e (v - 1) with
        entryMtx := Function.update w.entryMtx e none, holders := w.holders.erase e }
  | routineLock {interval bytes} (hmtx : w.mtx = none) :
      Stepped bandwidth w (.routineLock interval)
        { w with mtx := some (.routine bytes w.addrs.keys []) }
  | unused {a e bytes todo deleteProxies} (hmtx : w.mtx = some (.routine bytes todo deleteProxies))
      (h : w.addrs.lookup a = some e) (hidle : w.entryMtx e = none) (hcnt : (w.entries e).refCnt ≤ 0) :
      Stepped bandwidth w (.routineVisit a)
        { w with mtx := some (.routine bytes (todo.erase a) (deleteProxies ++ [a])) }
  | used {a e bytes todo deleteProxies} (hmtx : w.mtx = some (.routine bytes todo deleteProxies))
      (h : w.addrs.lookup a = some e) (hidle : w.entryMtx e = none) (hcnt : 0 < (w.entries e).refCnt) :
      Stepped bandwidth w (.routineVisit a) { w with
        entries := Function.update w.entries e (refill bytes (w.entries e))
        mtx := some (.routine bytes (todo.erase a) deleteProxies) }
  | routineErase {a bytes deleteProxies} (hmtx : w.mtx = some (.routine bytes [] (a :: deleteProxies))) :
      Stepped bandwidth w .routineErase
        { w with addrs := w.addrs.erase a, mtx := some (.routine bytes [] deleteProxies) }
  | routineUnlock {bytes} (hmtx : w.mtx = some (.routine bytes [] [])) :
      Stepped bandwidth w .routineUnlock { w with mtx := none }
  | charge {e direction amount} :
      Stepped bandwidth w (.charge e direction amount)
        { w with entries := Function.update w.entries e ((w.entries e).charge direction amount) }

variable {bandwidth : PairId → ℤ} {w w' : World} {ev : Event}

theorem getLock_cases {a : Address} (h : getLock bandwidth a w = some w') :
    Stepped bandwidth w (.getLock a) w' := by
  unfold getLock at h
  split at h
  · rename_i hzero
    cases h
    exact .unlimited hzero
  · split at h
    · rename_i hmtx
      rw [Option.isNone_iff_eq_none] at hmtx
      cases hlookup : w.addrs.lookup a with
      | none =>
        simp only [World.find, hlookup] at h
        cases h
        exact .made hmtx hlookup
      | some e =>
        simp only [World.find, hlookup] at h
        cases h
        exact .found hmtx hlookup
    · cases h

theorem routineVisit_cases {a : Address} (h : routineVisit a w = some w') :
    Stepped bandwidth w (.routineVisit a) w' := by
  unfold routineVisit at h
  split at h
  · rename_i bytes todo deleteProxies e hmtx hlookup
    split at h
    · rename_i hin
      split at h
      · rename_i hcnt
        cases h
        exact .unused hmtx hlookup hin.2 hcnt
      · rename_i hcnt
        cases h
        exact .used hmtx hlookup hin.2 (not_le.mp hcnt)
    · cases h
  · cases h

theorem step_cases (h : step bandwidth w ev = some w') : Stepped bandwidth w ev w' := by
  cases ev with
  | getLock a => exact getLock_cases h
  | getRead =>
    simp only [step, getRead] at h
    split at h
    · cases h
      exact .getRead ‹_›
    · cases h
  | getWrite =>
    simp only [step, getWrite] at h
    split at h
    · cases h
      exact .getWrite ‹_›
    · cases h
  | releaseLock e =>
    simp only [step, releaseLock, Option.ite_none_right_eq_some, Option.some.injEq] at h
    obtain ⟨⟨he, hmtx⟩, rfl⟩ := h
    exact .releaseLock he hmtx
  | releaseRead e =>
    simp only [step, releaseRead, Option.ite_none_right_eq_some, Option.some.injEq] at h
    obtain ⟨hmtx, rfl⟩ := h
    exact .releaseRead hmtx
  | releaseWrite e =>
    simp only [step, releaseWrite] at h
    split at h
    · cases h
      exact .releaseWrite ‹_›
    · cases h
  | routineLock interval =>
    simp only [step, routineLock, Option.ite_none_right_eq_some, Option.some.injEq] at h
    obtain ⟨⟨hmtx, -, -⟩, rfl⟩ := h
    exact .routineLock (Option.isNone_iff_eq_none.mp hmtx)
  | routineVisit a => exact routineVisit_cases h
  | routineErase =>
    simp only [step, routineErase] at h
    split at h
    · cases h
      exact .routineErase ‹_›
    · cases h
  | routineUnlock =>
    simp only [step, routineUnlock] at h
    split at h
    · cases h
      exact .routineUnlock ‹_›
    · cases h
  | charge e direction amount =>
    simp only [step, charge, Option.ite_none_right_eq_some, Option.some.injEq] at h
    obtain ⟨-, rfl⟩ := h
    exact .charge

structure Kept (w : World) : Prop where
  exact : ∀ e, SharedCounter.Exact (w.counter e)
  below : ∀ a e, w.addrs.lookup a = some e → e < w.nextEntry
  held : ∀ e ∈ w.holders, ∃ a, w.addrs.lookup a = some e
  getting : ∀ e read, w.mtx = some (.getIPProxy e read) → ∃ a, w.addrs.lookup a = some e
  releasing : ∀ e read, w.entryMtx e = some read → e ∈ w.holders
  unheld : ∀ bytes todo deleteProxies, w.mtx = some (.routine bytes todo deleteProxies) →
    ∀ a ∈ deleteProxies, ∀ e, w.addrs.lookup a = some e → e ∉ w.holders

theorem kept_start : Kept start := by
  constructor <;> simp [start, World.counter, raising, IPProxy.create, SharedCounter.exact_zero]

theorem exact_counter (hw : Kept w) (ha : ReadsAlone w ev) (h : Stepped bandwidth w ev w')
    (e : EntryId) : SharedCounter.Exact (w'.counter e) := by
  have hsame : w'.counter e = w.counter e → SharedCounter.Exact (w'.counter e) := by
    intro heq
    rw [heq]
    exact hw.exact e
  have hop : ∀ op, SharedCounter.Alone (w.counter e) op →
      SharedCounter.step (w.counter e) op = some (w'.counter e) → SharedCounter.Exact (w'.counter e) :=
    fun op halone hstep => SharedCounter.exact_step (hw.exact e) halone hstep
  cases h with
  | unlimited => exact hw.exact e
  | found hmtx hlookup =>
    apply hsame
    simp [World.counter, raising, hmtx]
  | made hmtx hlookup =>
    by_cases heq : e = w.nextEntry
    · subst heq
      have hfree : w.nextEntry ∉ w.holders := by
        intro hin
        obtain ⟨a, ha⟩ := hw.held _ hin
        exact absurd (hw.below a _ ha) (lt_irrefl _)
      have hmtx' : w.entryMtx w.nextEntry = none := by
        rw [Option.eq_none_iff_forall_ne_some]
        intro read hread
        exact hfree (hw.releasing _ read hread)
      simpa [World.counter, raising, hfree, hmtx', IPProxy.create] using SharedCounter.exact_zero
    · apply hsame
      simp [World.counter, raising, hmtx, heq]
  | @getRead e' hmtx =>
    by_cases heq : e' = e
    · subst heq
      apply hop .readUp (ha e' (by rw [hmtx]; rfl))
      simp [SharedCounter.step, World.counter, raising, hmtx]
    · apply hsame
      simp [World.counter, raising, hmtx, heq]
  | @getWrite e' v hmtx =>
    by_cases heq : e' = e
    · subst heq
      apply hop .writeUp trivial
      simp [SharedCounter.step, World.counter, raising, hmtx, World.setRefCnt]
    · apply hsame
      simp [World.counter, raising, hmtx, World.setRefCnt, heq, Ne.symm heq]
  | @releaseLock e' hin hmtx =>
    by_cases heq : e' = e
    · subst heq
      apply hsame
      simp [World.counter, hmtx]
    · apply hsame
      simp [World.counter, Ne.symm heq]
  | @releaseRead e' hmtx =>
    by_cases heq : e' = e
    · subst heq
      apply hop .readDown ha
      have hpos : 0 < w.holders.count e' := Multiset.count_pos.mpr (hw.releasing e' _ hmtx)
      simp [SharedCounter.step, World.counter, hmtx, hpos]
    · apply hsame
      simp [World.counter, Ne.symm heq]
  | @releaseWrite e' v hmtx =>
    by_cases heq : e' = e
    · subst heq
      apply hop .writeDown trivial
      simp [SharedCounter.step, World.counter, hmtx, World.setRefCnt]
    · apply hsame
      simp [World.counter, World.setRefCnt, Ne.symm heq, Multiset.count_erase_of_ne (Ne.symm heq)]
  | routineLock hmtx =>
    apply hsame
    simp [World.counter, raising, hmtx]
  | unused hmtx hlookup hidle hcnt =>
    apply hsame
    simp [World.counter, raising, hmtx]
  | @used a e' bytes todo deleteProxies hmtx hlookup hidle hcnt =>
    apply hsame
    by_cases heq : e = e'
    · subst heq
      simp [World.counter, raising, hmtx, refill]
    · simp [World.counter, raising, hmtx, heq]
  | routineErase hmtx =>
    apply hsame
    simp [World.counter, raising, hmtx]
  | routineUnlock hmtx =>
    apply hsame
    simp [World.counter, raising, hmtx]
  | @charge e' direction amount =>
    apply hsame
    by_cases heq : e = e'
    · subst heq
      simp [World.counter, IPProxy.charge]
    · simp [World.counter, heq]

theorem not_mem_of_unused {e : EntryId} (hw : Kept w) (hcnt : (w.entries e).refCnt ≤ 0) :
    e ∉ w.holders := by
  have hvalue : (w.entries e).refCnt = w.holders.count e := (hw.exact e).value_eq
  rw [hvalue] at hcnt
  apply Multiset.count_eq_zero.mp
  omega

def SectionKept (addrs : AList fun _ : Address => EntryId) (holders : Multiset EntryId) : Option TableSection → Prop
  | some (.getIPProxy e _) => ∃ a, addrs.lookup a = some e
  | some (.routine _ _ deleteProxies) => ∀ a ∈ deleteProxies, ∀ e, addrs.lookup a = some e → e ∉ holders
  | none => True

theorem SectionKept.erase {addrs : AList fun _ : Address => EntryId} {holders : Multiset EntryId}
    {mtx : Option TableSection} (h : SectionKept addrs holders mtx) (e : EntryId) :
    SectionKept addrs (holders.erase e) mtx := by
  match mtx with
  | none => trivial
  | some (.getIPProxy _ _) => exact h
  | some (.routine _ _ _) => exact fun a ha e' hlookup he' => h a ha e' hlookup (Multiset.mem_of_mem_erase he')

theorem Kept.section (hw : Kept w) : SectionKept w.addrs w.holders w.mtx := by
  cases hmtx : w.mtx with
  | none => trivial
  | some s =>
    cases s with
    | getIPProxy e read => exact hw.getting e read hmtx
    | routine bytes todo deleteProxies => exact hw.unheld bytes todo deleteProxies hmtx

theorem kept_of (hexact : ∀ e, SharedCounter.Exact (w.counter e))
    (hbelow : ∀ a e, w.addrs.lookup a = some e → e < w.nextEntry)
    (hheld : ∀ e ∈ w.holders, ∃ a, w.addrs.lookup a = some e) (hsection : SectionKept w.addrs w.holders w.mtx)
    (hreleasing : ∀ e read, w.entryMtx e = some read → e ∈ w.holders) : Kept w where
  exact := hexact
  below := hbelow
  held := hheld
  getting e read hmtx := by rwa [hmtx] at hsection
  releasing := hreleasing
  unheld bytes todo deleteProxies hmtx := by rwa [hmtx] at hsection

theorem releasing_update {e : EntryId} {s : Option (Option ℤ)} (he : e ∈ w.holders)
    (hreleasing : ∀ e read, w.entryMtx e = some read → e ∈ w.holders) :
    ∀ e' read, Function.update w.entryMtx e s e' = some read → e' ∈ w.holders := by
  intro e' read heq
  by_cases hee : e' = e
  · rw [hee]
    exact he
  · exact hreleasing e' read ((Function.update_of_ne hee _ _).symm.trans heq)

theorem kept_made {a : Address} (hw : Kept w) (hexact : ∀ e, SharedCounter.Exact (w'.counter e))
    (hlookup : w.addrs.lookup a = none)
    (heq : w' = { w with
      addrs := w.addrs.insert a w.nextEntry
      entries := Function.update w.entries w.nextEntry IPProxy.create
      nextEntry := w.nextEntry + 1
      mtx := some (.getIPProxy w.nextEntry none) }) : Kept w' := by
  subst heq
  refine kept_of hexact ?_ ?_ ⟨a, AList.lookup_insert _⟩ hw.releasing
  · intro b e hb
    obtain ⟨-, rfl⟩ | ⟨-, hb⟩ := lookup_insert_some.mp hb
    · exact Nat.lt_succ_self _
    · exact Nat.lt_succ_of_lt (hw.below b e hb)
  · intro e he
    obtain ⟨b, hb⟩ := hw.held e he
    exact ⟨b, lookup_insert_new hlookup hb⟩

theorem kept_erase {a : Address} {bytes : PairId → ℤ} {deleteProxies : List Address} (hw : Kept w)
    (hexact : ∀ e, SharedCounter.Exact (w'.counter e)) (hmtx : w.mtx = some (.routine bytes [] (a :: deleteProxies)))
    (heq : w' = { w with addrs := w.addrs.erase a, mtx := some (.routine bytes [] deleteProxies) }) : Kept w' := by
  subst heq
  have hunheld := hw.unheld _ _ _ hmtx
  refine kept_of hexact ?_ ?_ ?_ hw.releasing
  · intro b e hb
    exact hw.below b e (lookup_erase_some.mp hb).2
  · intro e he
    obtain ⟨b, hb⟩ := hw.held e he
    refine ⟨b, lookup_erase_some.mpr ⟨?_, hb⟩⟩
    rintro rfl
    exact hunheld b List.mem_cons_self e hb he
  · intro b hb e hlookup
    exact hunheld b (List.mem_cons_of_mem a hb) e (lookup_erase_some.mp hlookup).2

theorem kept_step (hw : Kept w) (ha : ReadsAlone w ev) (h : Stepped bandwidth w ev w') :
    Kept w' := by
  have hexact := exact_counter hw ha h
  have hsection := hw.section
  cases h with
  | unlimited => exact hw
  | found hmtx hlookup => exact kept_of hexact hw.below hw.held ⟨_, hlookup⟩ hw.releasing
  | made hmtx hlookup => exact kept_made hw hexact hlookup rfl
  | getRead hmtx =>
    rw [hmtx] at hsection
    exact kept_of hexact hw.below hw.held hsection hw.releasing
  | getWrite hmtx =>
    refine kept_of hexact hw.below ?_ trivial ?_
    · intro e he
      rcases Multiset.mem_cons.mp he with rfl | he
      · exact hw.getting _ _ hmtx
      · exact hw.held e he
    · intro e read heq
      exact Multiset.mem_cons_of_mem (hw.releasing e read heq)
  | releaseLock he => exact kept_of hexact hw.below hw.held hsection (releasing_update he hw.releasing)
  | releaseRead hmtx =>
    have he := hw.releasing _ _ hmtx
    exact kept_of hexact hw.below hw.held hsection (releasing_update he hw.releasing)
  | @releaseWrite e v hmtx =>
    refine kept_of hexact hw.below ?_ (hsection.erase e) ?_
    · intro e' he'
      exact hw.held e' (Multiset.mem_of_mem_erase he')
    · intro e' read heq
      by_cases hee : e' = e
      · rw [hee] at heq
        simp at heq
      · apply (Multiset.mem_erase_of_ne hee).mpr
        exact hw.releasing e' read ((Function.update_of_ne hee _ _).symm.trans heq)
  | routineLock => exact kept_of hexact hw.below hw.held nofun hw.releasing
  | @unused a e bytes todo deleteProxies hmtx hlookup hidle hcnt =>
    have hunused := not_mem_of_unused hw hcnt
    refine kept_of hexact hw.below hw.held ?_ hw.releasing
    intro b hb e' hlookup'
    rcases List.mem_append.mp hb with hb | hb
    · exact hw.unheld _ _ _ hmtx b hb e' hlookup'
    · obtain rfl := List.mem_singleton.mp hb
      rw [hlookup] at hlookup'
      cases hlookup'
      exact hunused
  | used hmtx => exact kept_of hexact hw.below hw.held (hw.unheld _ _ _ hmtx) hw.releasing
  | routineErase hmtx => exact kept_erase hw hexact hmtx rfl
  | routineUnlock => exact kept_of hexact hw.below hw.held trivial hw.releasing
  | charge => exact kept_of hexact hw.below hw.held hsection hw.releasing

def Sweeping (e : EntryId) (w : World) : Prop :=
  e ∉ w.holders ∧ ∃ bytes todo deleteProxies, w.mtx = some (.routine bytes todo deleteProxies) ∧
    ∀ a, w.addrs.lookup a = some e → a ∈ todo ∨ a ∈ deleteProxies

theorem sweeping_step {e : EntryId} (hw : Kept w) (hs : Sweeping e w) (hev : ev ≠ .routineUnlock)
    (h : Stepped bandwidth w ev w') : Sweeping e w' := by
  obtain ⟨hfree, bytes, todo, deleteProxies, hsection, hleft⟩ := hs
  have hcnt : ¬ 0 < (w.entries e).refCnt := by
    have hvalue : (w.entries e).refCnt = w.holders.count e := (hw.exact e).value_eq
    rw [hvalue, Multiset.count_eq_zero.mpr hfree]
    simp
  cases h with
  | found hmtx | made hmtx | getRead hmtx | getWrite hmtx | routineLock hmtx =>
    rw [hsection] at hmtx
    cases hmtx
  | unlimited | releaseLock | releaseRead | charge =>
    exact ⟨hfree, bytes, todo, deleteProxies, hsection, hleft⟩
  | releaseWrite =>
    refine ⟨?_, bytes, todo, deleteProxies, hsection, hleft⟩
    intro hin
    exact hfree (Multiset.mem_of_mem_erase hin)
  | @unused a e' bytes' todo' deleteProxies' hmtx hlookup =>
    rw [hsection] at hmtx
    cases hmtx
    refine ⟨hfree, bytes, todo.erase a, deleteProxies ++ [a], rfl, ?_⟩
    intro b hb
    by_cases hba : b = a
    · subst hba
      exact .inr (by simp)
    · exact (hleft b hb).imp (List.mem_erase_of_ne hba).mpr (List.mem_append_left _)
  | @used a e' bytes' todo' deleteProxies' hmtx hlookup hidle hpos =>
    rw [hsection] at hmtx
    cases hmtx
    refine ⟨hfree, bytes, todo.erase a, deleteProxies, rfl, ?_⟩
    intro b hb
    have hba : b ≠ a := by
      rintro rfl
      rw [hlookup] at hb
      cases hb
      exact hcnt hpos
    exact (hleft b hb).imp_left (List.mem_erase_of_ne hba).mpr
  | @routineErase a bytes' deleteProxies' hmtx =>
    rw [hsection] at hmtx
    cases hmtx
    refine ⟨hfree, bytes, [], deleteProxies', rfl, ?_⟩
    intro b hb
    obtain ⟨hba, hb⟩ := lookup_erase_some.mp hb
    exact (hleft b hb).imp_right fun hin => (List.mem_cons.mp hin).resolve_left hba
  | routineUnlock => exact absurd rfl hev

theorem sweeping_exec {e : EntryId} {es : List Event} (h : exec (step bandwidth) w es = some w')
    (hg : Along (step bandwidth) ReadsAlone w es) (hes : .routineUnlock ∉ es) (hw : Kept w)
    (hs : Sweeping e w) : Kept w' ∧ Sweeping e w' := by
  induction es generalizing w with
  | nil =>
    cases h
    exact ⟨hw, hs⟩
  | cons ev es ih =>
    obtain ⟨v, hv, h⟩ := exec_cons_some.mp h
    rw [along_cons hv] at hg
    have hstep := step_cases hv
    have hev : ev ≠ .routineUnlock := by
      rintro rfl
      exact hes List.mem_cons_self
    apply ih h hg.2 _ (kept_step hw hg.1 hstep) (sweeping_step hw hs hev hstep)
    intro hin
    exact hes (List.mem_cons_of_mem ev hin)

theorem kept_exec {es : List Event} (h : exec (step bandwidth) w es = some w')
    (hg : Along (step bandwidth) ReadsAlone w es) (hw : Kept w) : Kept w' :=
  exec_guarded (fun _ _ _ hs hr he => kept_step hs hr (step_cases he)) h hg hw

theorem erased_by_sweep {before during : List Event} {interval : ℤ} {v : World}
    (h : exec (step bandwidth) start (before ++ .routineLock interval :: during ++ [.routineUnlock]) =
      some w)
    (hg : Along (step bandwidth) ReadsAlone start
      (before ++ .routineLock interval :: during ++ [.routineUnlock]))
    (hduring : .routineUnlock ∉ during) (hv : exec (step bandwidth) start before = some v)
    {e : EntryId} (he : e ∉ v.holders) (a : Address) : w.addrs.lookup a ≠ some e := by
  rw [List.append_assoc, List.cons_append] at h hg
  rw [along_append hv] at hg
  obtain ⟨v', hv', h⟩ := exec_append_some.mp h
  rw [hv] at hv'
  cases hv'
  obtain ⟨u, hu, h⟩ := exec_cons_some.mp h
  rw [along_cons hu] at hg
  obtain ⟨u', hu', h⟩ := exec_append_some.mp h
  rw [along_append hu'] at hg
  rw [exec_single] at h
  have hkept := kept_exec hv hg.1 kept_start
  have hsweeping : Sweeping e u := by
    cases step_cases hu
    exact ⟨he, _, _, _, rfl, fun b hb => .inl (AList.mem_keys.mp (AList.lookup_isSome.mp (by simp [hb])))⟩
  obtain ⟨-, -, bytes, todo, deleteProxies, hsection, hleft⟩ := sweeping_exec hu' hg.2.2.1 hduring
    (kept_step hkept hg.2.1 (step_cases hu)) hsweeping
  cases step_cases h with
  | routineUnlock hmtx =>
    rw [hsection] at hmtx
    cases hmtx
    intro hlookup
    obtain hin | hin := hleft a hlookup <;> cases hin

theorem entry_lifetime {es : List Event} (h : exec (step bandwidth) start es = some w)
    (hg : Along (step bandwidth) ReadsAlone start es) :
    (∀ e, w.Idle e → (w.entries e).refCnt = w.holders.count e) ∧
    (∀ e ∈ w.holders, ∃ a, w.addrs.lookup a = some e) ∧
    ∀ before during interval v, es = before ++ .routineLock interval :: during ++ [.routineUnlock] →
      .routineUnlock ∉ during → exec (step bandwidth) start before = some v →
        ∀ e, e ∉ v.holders → ∀ a, w.addrs.lookup a ≠ some e := by
  have hkept := kept_exec h hg kept_start
  refine ⟨fun e _ => (hkept.exact e).value_eq, hkept.held, ?_⟩
  rintro before during interval v rfl hduring hv e he a
  exact erased_by_sweep h hg hduring hv he a

def after (bandwidth : PairId → ℤ) (es : List Event) : World :=
  (exec (step bandwidth) start es).getD start

def visit : List Event := [.getLock 7, .getRead, .getWrite, .releaseLock 0, .releaseRead 0, .releaseWrite 0]

def sweep : List Event := [.routineLock 10, .routineVisit 7, .routineErase, .routineUnlock]

theorem entry_lifetime_visit :
    (after (fun _ => 1000) visit).addrs.lookup 7 = some 0 ∧
    (after (fun _ => 1000) (visit ++ sweep)).addrs.lookup 7 ≠ some 0 := by
  refine ⟨rfl, ?_⟩
  have hexec : exec (step fun _ => 1000) start (visit ++ sweep) =
    some (after (fun _ => 1000) (visit ++ sweep)) := rfl
  exact (entry_lifetime hexec (by decide)).2.2 visit [.routineVisit 7, .routineErase] 10 _ rfl
    (by decide) rfl 0 (by decide) 7

/-- A client connects again while its first connection is being destroyed. -/
def reconnect : List Event :=
  [.getLock 7, .getRead, .getWrite, .getLock 7, .getRead, .releaseLock 0, .releaseRead 0, .getWrite,
    .releaseWrite 0]

theorem reconnect_loses_entry : ¬ ∀ (bandwidth : PairId → ℤ) (es : List Event) (w : World),
    exec (step bandwidth) start es = some w →
    (∀ e, w.Idle e → (w.entries e).refCnt = w.holders.count e) ∧
    (∀ e ∈ w.holders, ∃ a, w.addrs.lookup a = some e) ∧
    ∀ before during interval v, es = before ++ .routineLock interval :: during ++ [.routineUnlock] →
      .routineUnlock ∉ during → exec (step bandwidth) start before = some v →
        ∀ e, e ∉ v.holders → ∀ a, w.addrs.lookup a ≠ some e := by
  intro hclaim
  have hheld := (hclaim (fun _ => 1000) (reconnect ++ sweep)
    (after (fun _ => 1000) (reconnect ++ sweep)) rfl).2.1 0 (by decide)
  have hempty : (after (fun _ => 1000) (reconnect ++ sweep)).addrs = ∅ := rfl
  obtain ⟨a, ha⟩ := hheld
  rw [hempty, AList.lookup_empty] at ha
  cases ha

end TcpUdpProxy.IpThreads
