import TcpUdpProxy.TcpBandwidth

namespace TcpUdpProxy.TcpConnection

/-- `flushMsgs` to the end of the first round of its loop, and whether the second one follows. -/
def flushFirst (proxy : ProxyView) (bandwidth : PairId → ℤ) (flushBytes : ℤ) (expireTime : Msec)
    (f : Frame) : Except Fault (Bool × Frame) :=
  if f.conn.closeFlag then .ok (false, f)
  else if f.conn.activeTime < expireTime then .ok (false, stop f)
  else if !f.conn.fullOpen && queuesEmpty f.conn then .ok (false, f)
  else (flushPair proxy bandwidth flushBytes 0 f).map (Prod.mk true)

section rounds

variable {proxy : ProxyView} {bandwidth : PairId → ℤ} {flushBytes : ℤ} {expireTime : Msec}
  {more alive : Bool} {f f' g : Frame}

theorem flushFirst_cases (h : flushFirst proxy bandwidth flushBytes expireTime f = .ok (more, g)) :
    more = false ∧ (g = f ∨ g = stop f) ∨ more = true ∧ flushPair proxy bandwidth flushBytes 0 f = .ok g := by
  unfold flushFirst at h
  split at h
  · cases h
    exact .inl ⟨rfl, .inl rfl⟩
  · split at h
    · cases h
      exact .inl ⟨rfl, .inr rfl⟩
    · split at h
      · cases h
        exact .inl ⟨rfl, .inl rfl⟩
      · cases hpair : flushPair proxy bandwidth flushBytes 0 f with
        | error fault => rw [hpair] at h; cases h
        | ok g' =>
          rw [hpair] at h
          cases h
          exact .inr ⟨rfl, rfl⟩

theorem flushMsgs_rounds (h : flushMsgs proxy bandwidth flushBytes expireTime f = .ok (alive, f')) :
    flushFirst proxy bandwidth flushBytes expireTime f = .ok (false, f') ∨
      ∃ g, flushFirst proxy bandwidth flushBytes expireTime f = .ok (true, g) ∧
        flushPair proxy bandwidth flushBytes 1 g = .ok f' := by
  unfold flushFirst
  rcases flushMsgs_cases h with
    ⟨hclose, -, rfl⟩ | ⟨hopen, hexpired, -, rfl⟩ | ⟨hopen, hactive, -, ⟨hfull, hempty, rfl⟩ | ⟨g, h0, h1⟩⟩
  · left
    rw [if_pos hclose]
  · left
    rw [hopen, if_neg (by simp), if_pos hexpired]
  · left
    rw [hopen, if_neg (by simp), if_neg (not_lt.mpr hactive), if_pos (by simp [hfull, hempty])]
  · by_cases hidle : (!f.conn.fullOpen && queuesEmpty f.conn) = true
    · left
      unfold flushMsgs at h
      rw [hopen, if_neg (by simp), if_neg (not_lt.mpr hactive), if_pos hidle] at h ⊢
      cases h
      rfl
    · right
      rw [hopen, if_neg (by simp), if_neg (not_lt.mpr hactive), if_neg hidle, h0]
      exact ⟨g, rfl, h1⟩

def preceded (actions : List Action) (f : Frame) : Frame := { f with actions := actions ++ f.actions }

theorem startWrite_preceded (p : PairId) (actions : List Action) (f : Frame) :
    startWrite proxy bandwidth p (preceded actions f) =
      (startWrite proxy bandwidth p f).map (preceded actions) := by
  unfold startWrite preceded
  dsimp only
  split
  · rfl
  · split
    · split
      · split
        · rfl
        · split
          · simp [asyncWrite, chargeIp, setWriting, Except.map]
          · rfl
      · simp [asyncWrite, setWriting, Except.map]
    · rfl

theorem creditPair_preceded (p : PairId) (actions : List Action) (f : Frame) :
    creditPair proxy flushBytes p (preceded actions f) = preceded actions (creditPair proxy flushBytes p f) := by
  unfold creditPair preceded
  dsimp only
  split <;> rfl

theorem flushPair_preceded (p : PairId) (actions : List Action) (f : Frame) :
    flushPair proxy bandwidth flushBytes p (preceded actions f) =
      (flushPair proxy bandwidth flushBytes p f).map (preceded actions) := by
  rw [flushPair_eq, flushPair_eq, creditPair_preceded, startWrite_preceded]
  have hidle : (preceded actions f).conn = f.conn := rfl
  rw [hidle]
  split <;> rfl

end rounds

end TcpUdpProxy.TcpConnection

namespace TcpUdpProxy.TcpMachine

open TcpConnection

def firstRound (cfg : Config) (now : Msec) (flushBytes : ℤ) (expireTime : Msec) (w : World) : Bool × World :=
  match flushFirst ⟨cfg.proxyRule, now⟩ cfg.bandwidth flushBytes expireTime w.frame with
  | .ok (more, f) => (more, World.leave { w with now := now } f)
  | .error fault => (false, { w with now := now, fault := some fault })

def secondRound (cfg : Config) (flushBytes : ℤ) (w : World) : World :=
  w.finish (flushPair (w.view cfg) cfg.bandwidth flushBytes 1 w.frame)

theorem leave_leave (w : World) (f g : Frame) : (w.leave g).leave f = w.leave (preceded g.actions f) := by
  simp [World.leave, preceded, List.foldl_append]

theorem step_tick {cfg : Config} {w w' : World} {now expireTime : Msec} {flushBytes : ℤ}
    (h : step cfg w (.tick now flushBytes expireTime) = some w') (hfault : w'.fault = none) :
    firstRound cfg now flushBytes expireTime w = (false, w') ∨
      ∃ v, firstRound cfg now flushBytes expireTime w = (true, v) ∧ w' = secondRound cfg flushBytes v := by
  cases (step_cases h).2 with
  | tickFault => cases hfault
  | @tick _ _ _ alive f hf =>
    unfold firstRound
    obtain hfirst | ⟨g, hfirst, hsecond⟩ := flushMsgs_rounds hf
    · left
      rw [hfirst]
    · right
      rw [hfirst]
      refine ⟨_, rfl, ?_⟩
      have hframe : preceded g.actions (World.frame (World.leave { w with now := now } g)) = g := by
        simp [preceded, World.frame, World.leave]
      have hview : World.view cfg (World.leave { w with now := now } g) = ⟨cfg.proxyRule, now⟩ := rfl
      have hrest : flushPair ⟨cfg.proxyRule, now⟩ cfg.bandwidth flushBytes 1
          (preceded g.actions (World.frame (World.leave { w with now := now } g))) = _ :=
        flushPair_preceded 1 g.actions _
      rw [hframe, hsecond] at hrest
      unfold secondRound
      rw [hview]
      cases hlast : flushPair ⟨cfg.proxyRule, now⟩ cfg.bandwidth flushBytes 1
          (World.frame (World.leave { w with now := now } g)) with
      | error fault => rw [hlast] at hrest; cases hrest
      | ok f' =>
        rw [hlast] at hrest
        cases hrest
        exact (leave_leave _ f' g).symm

inductive Settled (u v : World) : Prop
  | free (hip : v.ip = u.ip) (hstarted : v.history.started = u.history.started)
  | paid {p : PairId} {x : Item} (hsize : x.msg.buffer.bufSize ≤ tcpBufferSize)
      (havail : 0 ≤ u.ip.availBytes (1 - p)) (hip : v.ip = u.ip.charge (1 - p) x.msg.cost)
      (hstarted : v.history.started = snoc u.history.started p x)

section settled

variable {cfg : Config} {proxy : ProxyView} {bandwidth : PairId → ℤ} {p : PairId} {flushBytes : ℤ}
  {u v w w' : World} {f f' : Frame} {e : Event}

def account (w : World) (f : Frame) : IPProxy × (PairId → List Item) :=
  (f.ip, (f.actions.foldl (History.note w.heap) w.history).started)

theorem account_stop : account w (stop f) = account w f := by
  simp [account, stop, History.note]

theorem account_asyncRead : account w (asyncRead p f) = account w f := by
  simp [account, asyncRead, History.note]

theorem account_popMsg (msg : Msg) (rest : List Msg) : account w (popMsg p msg rest f) = account w f := by
  simp [account, popMsg, History.note]

theorem account_pushMsg (activeTime : Msec) (msg : Msg) :
    account w (pushMsg p activeTime msg f) = account w f := by
  simp [account, pushMsg, History.note]

theorem account_resumeRead : account w (resumeRead p f) = account w f := by
  unfold resumeRead
  split
  · rw [account_asyncRead]
    rfl
  · rfl

theorem account_creditPair : account w (creditPair proxy flushBytes p f) = account w f := by
  unfold creditPair
  split <;> rfl

theorem account_handleConnect (ec : ErrorCode) : account w (handleConnect proxy ec f) = account w f := by
  by_cases hec : ec = .success
  · subst hec
    simp only [handleConnect, ne_eq, not_true_eq_false, if_false]
    rw [account_asyncRead, account_asyncRead]
    rfl
  · rcases handleConnect_failure proxy f hec with h | h
    · rw [h]
    · rw [h, account_stop]

theorem account_handleRead (ec : ErrorCode) (n : ℕ) :
    account w (handleRead proxy p ec n f) = account w f := by
  by_cases hec : ec = .success
  · subst hec
    obtain ⟨activeTime, ⟨-, h⟩ | ⟨-, h⟩⟩ := handleRead_success proxy p f n
    · rw [h]
      exact account_pushMsg (f := f) activeTime _
    · rw [h, account_asyncRead, account_pushMsg]
  · rcases handleRead_failure proxy p f hec n with ⟨-, h⟩ | ⟨-, -, h⟩ | ⟨-, -, h⟩
    · rw [h]
    · rw [h]
      rfl
    · rw [h, account_stop]

theorem Settled.of_account (h : account w f' = account w f) : Settled (w.leave f) (w.leave f') :=
  .free (congrArg Prod.fst h) (congrArg Prod.snd h)

theorem Settled.congr (h : Settled u v) (hip : u.ip = w.ip) (hstarted : u.history.started = w.history.started) :
    Settled w v := by
  cases h with
  | free hip' hstarted' => exact .free (hip'.trans hip) (hstarted'.trans hstarted)
  | paid hsize havail hip' hstarted' =>
    rw [hip] at havail hip'
    rw [hstarted] at hstarted'
    exact .paid hsize havail hip' hstarted'

theorem Settled.congr_account {g : Frame} (h : account w f = account w f')
    (hg : Settled (w.leave f) (w.leave g)) : Settled (w.leave f') (w.leave g) :=
  hg.congr (congrArg Prod.fst h) (congrArg Prod.snd h)

theorem startWrite_limited (hlimit : ∀ i, 0 < bandwidth i) (h : startWrite proxy bandwidth p f = .ok f') :
    f' = setWriting p false f ∨ ∃ msg rest, f.conn.msgQueuePair p = msg :: rest ∧
      0 ≤ f.ip.availBytes (1 - p) ∧ f' = asyncWrite proxy p msg (chargeIp (1 - p) msg f) := by
  unfold startWrite at h
  split at h
  · exact .inl (by simpa using h.symm)
  next msg rest hq =>
    split at h
    · rw [if_pos (hlimit (1 - p))] at h
      split at h
      · cases h
      · split at h
        next havail => exact .inr ⟨msg, rest, hq, havail, by simpa using h.symm⟩
        · exact .inl (by simpa using h.symm)
    · exact .inl (by simpa using h.symm)

theorem settled_startWrite (hlimit : ∀ i, 0 < bandwidth i) (hfits : Fits f)
    (h : startWrite proxy bandwidth p f = .ok f') : Settled (w.leave f) (w.leave f') := by
  obtain rfl | ⟨msg, rest, hq, havail, rfl⟩ := startWrite_limited hlimit h
  · exact .of_account rfl
  · apply Settled.paid (p := p) (x := item w.heap msg)
    · exact hfits p msg (by simp [hq])
    · exact havail
    · rfl
    · simp [World.leave, asyncWrite, chargeIp, setWriting, History.note]

theorem settled_handleWrite (hlimit : ∀ i, 0 < bandwidth i) (hfits : Fits f) {ec : ErrorCode}
    (h : handleWrite proxy bandwidth p ec f = .ok f') : Settled (w.leave f) (w.leave f') := by
  by_cases hec : ec = .success
  · subst hec
    rcases handleWrite_success h with ⟨-, hs⟩ | ⟨m, rest, -, hq, ⟨-, -, rfl⟩ | hs⟩
    · exact settled_startWrite hlimit hfits hs
    · apply Settled.of_account
      rw [account_stop, account_popMsg]
    · have hresumed : Fits (resumeRead p (popMsg p m rest f)) :=
        stable_fits.toSteady.resumeRead (stable_fits.popMsg hq hfits)
      apply Settled.congr_account _ (settled_startWrite hlimit hresumed hs)
      rw [account_resumeRead, account_popMsg]
  · rcases handleWrite_failure hec h with ⟨-, rfl⟩ | ⟨-, -, rfl⟩
    · exact .of_account rfl
    · exact .of_account account_stop

theorem settled_flushPair (hlimit : ∀ i, 0 < bandwidth i) (hfits : Fits f)
    (h : flushPair proxy bandwidth flushBytes p f = .ok f') : Settled (w.leave f) (w.leave f') := by
  rw [flushPair_eq] at h
  split at h
  · exact Settled.congr_account account_creditPair
      (settled_startWrite hlimit (stable_fits.creditPair hfits) h)
  · cases h
    exact .of_account account_creditPair

def Event.ticks : Event → Bool
  | .tick .. | .ip .. => true
  | _ => false

theorem settled_step (hlimit : ∀ i, 0 < cfg.bandwidth i) (hw : Sized w) (he : e.ticks = false)
    (h : step cfg w e = some w') : Settled w w' := by
  cases (step_cases h).2 with
  | @connect ec v hv =>
    have hsame : Settled (v.leave v.frame) (v.leave (handleConnect (v.view cfg) ec v.frame)) :=
      .of_account (account_handleConnect ec)
    rw [leave_frame] at hsame
    obtain ⟨-, ⟨rfl, rfl⟩ | ⟨-, rfl⟩⟩ := enter_connect hv
    · exact hsame.congr rfl rfl
    · exact hsame.congr rfl rfl
  | @read q buf ec n v hv =>
    have hsame : Settled (v.leave v.frame) (v.leave (handleRead (v.view cfg) q ec n v.frame)) :=
      .of_account (account_handleRead ec n)
    rw [leave_frame] at hsame
    obtain ⟨-, -, rfl⟩ := enter_read hv
    exact hsame.congr rfl rfl
  | @write q msg ec v f hv hf =>
    obtain ⟨-, rfl⟩ := enter_write hv
    have hfits : Fits (w.dispatch (.write q msg) ec).frame := hw
    have hpaid := settled_handleWrite (w := w.dispatch (.write q msg) ec) hlimit hfits hf
    rw [leave_frame] at hpaid
    exact hpaid.congr rfl rfl
  | writeFault hv =>
    obtain ⟨-, rfl⟩ := enter_write hv
    exact .free rfl rfl
  | stop =>
    have hsame : Settled (w.leave w.frame) (w.leave (stop w.frame)) := .of_account account_stop
    rwa [leave_frame] at hsame
  | tick | tickFault | ip => cases he
  | _ => exact .free rfl rfl

theorem settled_firstRound {now expireTime : Msec} {more : Bool} (hlimit : ∀ i, 0 < cfg.bandwidth i)
    (hw : Sized w) (h : firstRound cfg now flushBytes expireTime w = (more, v)) : Settled w v := by
  unfold firstRound at h
  split at h
  next more' f hf =>
    cases h
    have hfits : Fits w.frame := hw
    rcases flushFirst_cases hf with ⟨-, rfl | rfl⟩ | ⟨-, hpair⟩
    · exact .free rfl rfl
    · exact (Settled.of_account (w := { w with now := now }) account_stop).congr rfl rfl
    · exact (settled_flushPair (w := { w with now := now }) hlimit hfits hpair).congr rfl rfl
  · cases h
    exact .free rfl rfl

theorem settled_secondRound (hlimit : ∀ i, 0 < cfg.bandwidth i) (hw : Sized w) :
    Settled w (secondRound cfg flushBytes w) := by
  unfold secondRound
  have hfits : Fits w.frame := hw
  cases hpair : flushPair (w.view cfg) cfg.bandwidth flushBytes 1 w.frame with
  | ok f =>
    have hpaid := settled_flushPair (w := w) hlimit hfits hpair
    rwa [leave_frame] at hpaid
  | error fault => exact .free rfl rfl

end settled

structure Served (peer : Address) (w : World) : Prop where
  sound : Sound w
  sized : Sized w
  client : w.conn.clientIp = some peer

theorem stable_clientIp (clientIp : Option Address) : Stable fun f => f.conn.clientIp = clientIp where
  asyncRead h := h
  asyncWrite h := h
  setWriting h := h
  setReading h := h
  chargeIp h := h
  popMsg _ h := h
  creditPair h := by
    unfold creditPair
    split <;> exact h
  connect h := h
  drain h := h
  stop h := h

section served

variable {cfg : Config} {peer : Address} {w w' : World} {e : Event} {flushBytes : ℤ}

theorem served_accepted {now : Msec} {ip : IPProxy} {heap : Heap} :
    Served peer (accepted cfg now (some peer) ip heap) where
  sound := sound_accepted ⟨now, some peer, ip, heap, rfl⟩
  sized := sized_accepted ⟨now, some peer, ip, heap, rfl⟩
  client := rfl

theorem Served.withIp (h : Served peer w) (ip : IPProxy) : Served peer { w with ip := ip } where
  sound := ⟨h.sound.relay, h.sound.fresh, h.sound.connecting⟩
  sized := h.sized
  client := h.client

theorem clientIp_step {clientIp : Option Address} (hw : w.conn.clientIp = clientIp)
    (h : step cfg w e = some w') : w'.conn.clientIp = clientIp := by
  have hstable := stable_clientIp clientIp
  cases (step_cases h).2 with
  | @connect ec v hv =>
    have hentered : v.frame.conn.clientIp = clientIp := by
      obtain ⟨-, ⟨rfl, rfl⟩ | ⟨-, rfl⟩⟩ := enter_connect hv
      · change (connectSocket w.conn).clientIp = clientIp
        unfold connectSocket
        split <;> exact hw
      · exact hw
    exact hstable.handleConnect hentered
  | read hv =>
    obtain ⟨-, -, rfl⟩ := enter_read hv
    exact hstable.handleRead hw fun _ => hw
  | write hv hf =>
    obtain ⟨-, rfl⟩ := enter_write hv
    exact hstable.handleWrite hw hf
  | writeFault hv hf =>
    obtain ⟨-, rfl⟩ := enter_write hv
    exact hw
  | tick hf => exact hstable.flushMsgs hw hf
  | _ => exact hw

theorem served_step (hw : Served peer w) (h : step cfg w e = some w') : Served peer w' where
  sound := sound_step hw.sound h
  sized := sized_step hw.sized h
  client := clientIp_step hw.client h

theorem served_flushPair {proxy : ProxyView} {bandwidth : PairId → ℤ} {p : PairId} {f : Frame}
    (hw : Served peer w) (h : flushPair proxy bandwidth flushBytes p w.frame = .ok f) :
    Served peer (w.leave f) := by
  have hfits : Fits w.frame := hw.sized
  refine ⟨⟨?_, ?_, ?_⟩, stable_fits.flushPair hfits h, (stable_clientIp _).flushPair hw.client h⟩
  · intro d
    exact (direction_flushPair h).inv (hw.sound.relay d)
  · rw [readSide_flushPair w p w.frame h]
    exact hw.sound.fresh
  · rw [readSide_flushPair w p w.frame h]
    exact hw.sound.connecting

theorem served_firstRound {now expireTime : Msec} (hw : Served peer w) :
    Served peer (firstRound cfg now flushBytes expireTime w).2 := by
  have hnow : Served peer { w with now := now } :=
    ⟨⟨hw.sound.relay, hw.sound.fresh, hw.sound.connecting⟩, hw.sized, hw.client⟩
  unfold firstRound
  split
  next more f hf =>
    rcases flushFirst_cases hf with ⟨-, rfl | rfl⟩ | ⟨-, hpair⟩
    · exact hnow
    · refine ⟨⟨?_, ?_, ?_⟩, hnow.sized, hnow.client⟩
      · intro d
        rw [direction_stop]
        exact hnow.sound.relay d
      · rw [readSide_stop]
        exact hnow.sound.fresh
      · rw [readSide_stop]
        exact hnow.sound.connecting
    · exact served_flushPair hnow hpair
  · exact ⟨⟨hw.sound.relay, hw.sound.fresh, hw.sound.connecting⟩, hw.sized, hw.client⟩

theorem served_secondRound (hw : Served peer w) : Served peer (secondRound cfg flushBytes w) := by
  unfold secondRound
  cases hpair : flushPair (w.view cfg) cfg.bandwidth flushBytes 1 w.frame with
  | ok f => exact served_flushPair hw hpair
  | error fault =>
    exact ⟨⟨hw.sound.relay, hw.sound.fresh, hw.sound.connecting⟩, hw.sized, hw.client⟩

end served

end TcpUdpProxy.TcpMachine
