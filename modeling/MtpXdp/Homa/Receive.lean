import MtpXdp.Homa.Bitmap
import MtpXdp.Homa.GrantList

/-!
# Arriving Data Segments

`server_request` and `client_response` of `eBPF/homa/rpc.h`: what an arriving segment of a request
or a response does to the RPC, to the number of incoming bytes and to the grant list. Each call is
one step: between the lookup of the RPC and the last update no other program runs.
-/

namespace MtpXdp.Homa

open Ebpf (U16 U32 U64)

variable {s : HomaState} {k : RpcKey} {r : RpcState} {d : DataHeader} {env : Env}

structure RxResult where
  verdict : Verdict
  reapClientBufferAddr : U64

def RxResult.of (v : Verdict) : RxResult := ⟨v, poison64⟩

def DataHeader.segLength (d : DataHeader) : U64 := d.segmentLength.setWidth 64

def startMessage (r : RpcState) (d : DataHeader) : RpcState :=
  let r := { r with bitWidth := segmentCount d.messageLength }
  let r := (setBitmap (clearAllBitmaps r) d.seq).1
  { r with
    messageLength := d.messageLength
    cc := { r.cc with
      incoming := d.incoming.setWidth 64
      bytesRemaining := d.messageLength.setWidth 64 - d.segLength } }

def accountSegment (r : RpcState) (d : DataHeader) : RpcState :=
  let incoming := d.incoming.setWidth 64
  { r with
    cc := { r.cc with
      incoming := if r.cc.incoming < incoming then incoming else r.cc.incoming
      bytesRemaining := r.cc.bytesRemaining - d.segLength } }

def recordSegment (r : RpcState) (d : DataHeader) : RpcState × BitmapResult :=
  match setBitmap r d.seq with
  | (r, .error) => (r, .error)
  | (r, res) => (accountSegment r d, res)

def needSchedule (r : RpcState) (d : DataHeader) : Bool :=
  decide (r.cc.incoming.toNat < d.messageLength.toNat)

/-- An RPC that needs grants is cached, and enters the grant list with its first segment. -/
def schedule (s : HomaState) (k : RpcKey) (r : RpcState) (d : DataHeader) (newState : Bool)
    (env : Env) : HomaState × RxResult :=
  if needSchedule r d then
    let s := cacheThisRpc s k env
    if newState then
      let (s, v) := insertGrantList s k d.messageLength env
      (s, .of v)
    else (s, .of .redirect)
  else (s, .of .redirect)

def newServerRpc (k : RpcKey) (d : DataHeader) : RpcState :=
  startMessage
    { RpcState.zero with
      remoteIp := k.remoteIp
      remotePort := k.remotePort
      localPort := k.localPort
      id := k.rpcid
      state := if d.singlePacket then .inService else .incoming
      bufferHead := poison64 } d

def serverRequest (s : HomaState) (d : DataHeader) (remoteIp : U32) (env : Env) :
    HomaState × RxResult :=
  let k := d.hkey remoteIp
  match s.rpcTbl k with
  | none =>
    -- a retransmitted packet must not create state
    if d.retransmit then (s, .of .drop)
    else if env.mapOk then
      let r := newServerRpc k d
      let s := s.setRpc k r
      let s := { s with totalIncoming := s.totalIncoming + (d.incoming.setWidth 64 - d.segLength) }
      if d.singlePacket then (s, .of .redirect) else schedule s k r d true env
    else (s, .of .drop)
  | some r =>
    if r.state = .dead then (s, .of .drop)
    else
      match recordSegment r d with
      | (_, .error) => (s, .of .drop)
      | (r, .complete) =>
        let s := s.setRpc k { r with state := .inService }
        ({ s with totalIncoming := s.totalIncoming - d.segLength }, .of .redirect)
      | (r, .more) =>
        let s := s.setRpc k r
        let s := { s with totalIncoming := s.totalIncoming - d.segLength }
        if d.singlePacket then (s, .of .redirect) else schedule s k r d false env

/-- At the client: the queue id goes back, the server is told later, user space gets the buffers. -/
def finishClientRpc (s : HomaState) (k : RpcKey) (r : RpcState) : HomaState × RxResult :=
  let s := if r.qid ≠ maxBucketSize then s.freeQid r.qid else s
  ((s.enqueueDeadCrpc k).deleteRpc k, ⟨.redirect, r.bufferHead⟩)

def clientResponse (s : HomaState) (d : DataHeader) (remoteIp : U32) (env : Env) :
    HomaState × RxResult :=
  let k := d.hkey remoteIp
  match s.rpcTbl k with
  | none => (s, .of .drop)
  | some r =>
    match r.state with
    | .dead => (s, .of .drop)
    | .outgoing =>
      if d.singlePacket then finishClientRpc s k r
      else
        let r := startMessage { r with state := .incoming } d
        let s := s.setRpc k r
        let s := { s with totalIncoming :=
          s.totalIncoming + (d.incoming.setWidth 64 - d.segLength) }
        schedule s k r d true env
    | _ =>
      match recordSegment r d with
      | (_, .error) => (s, .of .drop)
      | (r, .complete) => finishClientRpc s k r
      | (r, .more) =>
        let s := s.setRpc k r
        let s := { s with totalIncoming := s.totalIncoming - d.segLength }
        schedule s k r d false env

def receiveData (s : HomaState) (d : DataHeader) (remoteIp : U32) (env : Env) :
    HomaState × RxResult :=
  if rpcIsClient (localId d.senderId) then clientResponse s d remoteIp env
  else serverRequest s d remoteIp env

/-! ## Scheduling -/

section

variable {s' : HomaState}

theorem GrantListOnly.exists_rpc (h : GrantListOnly s s') (hr : s.rpcTbl k = some r) :
    ∃ r', s'.rpcTbl k = some r' ∧ r'.core = r.core := by
  have hk := h.rpcs k
  rw [hr, Option.map_some] at hk
  exact Option.map_eq_some_iff.mp hk

theorem grantListOnly_schedule (s : HomaState) (k : RpcKey) (r : RpcState) (d : DataHeader)
    (newState : Bool) (env : Env) : GrantListOnly s (schedule s k r d newState env).1 := by
  unfold schedule
  have hcache := grantListOnly_cacheThisRpc s k env
  split
  · split
    · exact hcache.trans (grantListOnly_insertGrantList _ _ _ _)
    · exact hcache
  · exact .refl s

theorem insertGrantList_verdict (s : HomaState) (k : RpcKey) (ml : U32) (hobj : env.objOk = true) :
    (insertGrantList s k ml env).2 = .redirect := by
  unfold insertGrantList
  rw [if_pos hobj]
  split <;> rfl

theorem schedule_verdict (s : HomaState) (k : RpcKey) (r : RpcState) (d : DataHeader)
    (newState : Bool) (hobj : env.objOk = true) :
    (schedule s k r d newState env).2 = .of .redirect := by
  unfold schedule
  split
  · split
    · exact congrArg RxResult.of (insertGrantList_verdict _ k _ hobj)
    · rfl
  · rfl

end

/-! ## What an arriving segment can do -/

section

variable {ip : U32}

theorem setBitmap_kept (r : RpcState) (seq : U16) :
    (setBitmap r seq).1.qid = r.qid ∧ (setBitmap r seq).1.bufferHead = r.bufferHead := by
  unfold setBitmap incRound
  dsimp only
  split_ifs <;> exact ⟨rfl, rfl⟩

theorem startMessage_kept (r : RpcState) (d : DataHeader) :
    (startMessage r d).qid = r.qid ∧ (startMessage r d).bufferHead = r.bufferHead :=
  setBitmap_kept _ d.seq

theorem recordSegment_kept (r : RpcState) (d : DataHeader) :
    (recordSegment r d).1.qid = r.qid ∧ (recordSegment r d).1.bufferHead = r.bufferHead := by
  have hbit := setBitmap_kept r d.seq
  unfold recordSegment
  cases hset : setBitmap r d.seq with
  | mk r' res =>
    rw [hset] at hbit
    cases res <;> exact hbit

/-- Refused, created (server), a segment recorded, or finished (client). -/
inductive RxCase (s : HomaState) (k : RpcKey) (d : DataHeader) (env : Env) :
    (client : Bool) → HomaState × RxResult → Prop where
  | refused {client : Bool} : RxCase s k d env client (s, .of .drop)
  | created (x : U64) (v : Verdict) (s' : HomaState) (hnone : s.rpcTbl k = none)
      (hnew : d.retransmit = false ∧ env.mapOk = true)
      (hgrant : GrantListOnly { s.setRpc k (newServerRpc k d) with totalIncoming := x } s') :
      RxCase s k d env false (s', .of v)
  | recorded {client : Bool} (r r' : RpcState) (x : U64) (v : Verdict) (s' : HomaState)
      (hr : s.rpcTbl k = some r)
      (hqid : r'.qid = r.qid) (hhead : r'.bufferHead = r.bufferHead)
      (hgrant : GrantListOnly { s.setRpc k r' with totalIncoming := x } s') :
      RxCase s k d env client (s', .of v)
  | finished (r r' : RpcState) (hr : s.rpcTbl k = some r) (hqid : r'.qid = r.qid)
      (hhead : r'.bufferHead = r.bufferHead) : RxCase s k d env true (finishClientRpc s k r')

theorem schedule_eq (s : HomaState) (k : RpcKey) (r : RpcState) (d : DataHeader) (b : Bool)
    (env : Env) : ∃ v s', GrantListOnly s s' ∧ schedule s k r d b env = (s', .of v) := by
  have hgrant := grantListOnly_schedule s k r d b env
  have hres : ∃ v, (schedule s k r d b env).2 = .of v := by
    unfold schedule
    split
    · split <;> exact ⟨_, rfl⟩
    · exact ⟨_, rfl⟩
  obtain ⟨v, hv⟩ := hres
  exact ⟨v, _, hgrant, Prod.ext rfl hv⟩

theorem RxCase.schedule {r' : RpcState} (hr : s.rpcTbl k = some r) (hqid : r'.qid = r.qid)
    (hhead : r'.bufferHead = r.bufferHead) (x : U64) (b : Bool) (env : Env) {client : Bool} :
    RxCase s k d env client (schedule { s.setRpc k r' with totalIncoming := x } k r' d b env) := by
  obtain ⟨v, s', hgrant, heq⟩ := schedule_eq { s.setRpc k r' with totalIncoming := x } k r' d b env
  rw [heq]
  exact .recorded r r' x v s' hr hqid hhead hgrant

theorem serverRequest_created (hnone : s.rpcTbl (d.hkey ip) = none) (hre : d.retransmit = false)
    (hmap : env.mapOk = true) : ∃ x v s', GrantListOnly
      { s.setRpc (d.hkey ip) (newServerRpc (d.hkey ip) d) with totalIncoming := x } s' ∧
      serverRequest s d ip env = (s', .of v) := by
  simp only [serverRequest, hnone, hre, hmap, Bool.false_eq_true, if_false, if_true]
  split_ifs
  · exact ⟨_, _, _, .refl _, rfl⟩
  · obtain ⟨v, s', hgrant, heq⟩ := schedule_eq _ (d.hkey ip) (newServerRpc (d.hkey ip) d) d true env
    exact ⟨_, v, s', hgrant, heq⟩

theorem serverRequest_cases (s : HomaState) (d : DataHeader) (ip : U32) (env : Env) :
    RxCase s (d.hkey ip) d env false (serverRequest s d ip env) := by
  cases hr : s.rpcTbl (d.hkey ip) with
  | none =>
    cases hre : d.retransmit with
    | true =>
      simp only [serverRequest, hr, hre, if_true]
      exact .refused
    | false =>
      cases hmap : env.mapOk with
      | true =>
        obtain ⟨x, v, s', hgrant, heq⟩ := serverRequest_created hr hre hmap
        rw [heq]
        exact .created x v s' hr ⟨hre, hmap⟩ hgrant
      | false =>
        simp only [serverRequest, hr, hre, hmap, Bool.false_eq_true, if_false]
        exact .refused
  | some r =>
    by_cases hdead : r.state = .dead
    · simp only [serverRequest, hr, hdead, if_true]
      exact .refused
    · have hkept := recordSegment_kept r d
      cases hrec : recordSegment r d with
      | mk r' res =>
        rw [hrec] at hkept
        simp only [serverRequest, hr, hdead, hrec, if_false]
        cases res with
        | error => exact .refused
        | complete =>
          exact .recorded r { r' with state := .inService } _ .redirect _ hr hkept.1 hkept.2
            (.refl _)
        | more =>
          split_ifs
          · exact .recorded r r' _ .redirect _ hr hkept.1 hkept.2 (.refl _)
          · exact .schedule hr hkept.1 hkept.2 _ false env

theorem clientResponse_cases (s : HomaState) (d : DataHeader) (ip : U32) (env : Env) :
    RxCase s (d.hkey ip) d env true (clientResponse s d ip env) := by
  cases hr : s.rpcTbl (d.hkey ip) with
  | none =>
    simp only [clientResponse, hr]
    exact .refused
  | some r =>
    cases hstate : r.state with
    | dead =>
      simp only [clientResponse, hr, hstate]
      exact .refused
    | outgoing =>
      simp only [clientResponse, hr, hstate]
      split_ifs
      · exact .finished r r hr rfl rfl
      · have hstart := startMessage_kept { r with state := .incoming } d
        exact .schedule hr hstart.1 hstart.2 _ true env
    | incoming | inService =>
      have hkept := recordSegment_kept r d
      cases hrec : recordSegment r d with
      | mk r' res =>
        rw [hrec] at hkept
        simp only [clientResponse, hr, hstate, hrec]
        cases res with
        | error => exact .refused
        | complete => exact .finished r r' hr hkept.1 hkept.2
        | more => exact .schedule hr hkept.1 hkept.2 _ false env

end

end MtpXdp.Homa
