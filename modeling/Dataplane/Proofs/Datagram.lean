import Dataplane.Proofs.Receive

/-!
# How much of a datagram a receiver sees

A slot of the buffer ring holds a header, the source address and the payload, so
a multishot receive has less room than the buffer a datagram is sent from.
-/

namespace Dataplane.Proofs

open ProofSupport Model

/-! ## The slot -/

def payloadRoom : Nat := bufSize - slotHeader

section Slot

variable {name pad : Bytes} (payload old : Bytes)

theorem recvmsgOut_eq (hname : name.length + pad.length = sizeofSockaddrStorage) :
    ∃ front : Bytes, front.length = slotHeader ∧
      recvmsgOut sizeofSockaddrStorage name pad payload = front ++ payload.take payloadRoom := by
  refine ⟨_, ?_, rfl⟩
  simp only [List.length_append, Bytes.length_le32, hname]
  rfl

theorem length_recvmsgOut (hname : name.length + pad.length = sizeofSockaddrStorage) :
    (recvmsgOut sizeofSockaddrStorage name pad payload).length =
      slotHeader + min payload.length payloadRoom := by
  obtain ⟨front, hfront, heq⟩ := recvmsgOut_eq payload hname
  rw [heq, List.length_append, hfront, List.length_take, Nat.min_comm]

theorem readLe32_recvmsgOut (hname : name.length + pad.length = sizeofSockaddrStorage) :
    Bytes.readLe32 (Bytes.overwrite old (recvmsgOut sizeofSockaddrStorage name pad payload)) =
      name.length := by
  have hlt : name.length < 2 ^ 32 := by
    have hsize : sizeofSockaddrStorage < 2 ^ 32 := by decide
    omega
  simp only [recvmsgOut, Bytes.overwrite, List.append_assoc]
  exact Bytes.readLe32_le32 hlt _

theorem payload_recvmsgOut (hname : name.length + pad.length = sizeofSockaddrStorage)
    (hroom : payload.length ≤ payloadRoom) :
    ((Bytes.overwrite old (recvmsgOut sizeofSockaddrStorage name pad payload)).drop slotHeader).take
      payload.length = payload := by
  obtain ⟨front, hfront, heq⟩ := recvmsgOut_eq payload hname
  rw [heq, List.take_of_length_le hroom, Bytes.overwrite, List.append_assoc, ← hfront,
    List.drop_left, List.take_left]

end Slot

/-! ## Decoding -/

/-- What `iouring_multishot_recvmsg_out` makes of a completion that reports more
than header and address. -/
theorem iouringMultishotRecvmsgOut_decodes {ctx : IouringCtx} {op : OpId} {bid n : Nat}
    (more : Bool) (hmsg : recvmsgHeader (ctx.ops op).msg = slotHeader)
    (hlen : (ctx.ops op).dataLen = (slotHeader + n : Nat)) (hpos : 0 < n)
    (hname : Bytes.readLe32 (ctx.brBufs bid) ≠ 0) :
    ((ctx.iouringMultishotRecvmsgOut op ⟨true, more, bid⟩).2.ops op).dataLen = n ∧
      ((ctx.iouringMultishotRecvmsgOut op ⟨true, more, bid⟩).2.ops op).buffer =
        some (.slot bid slotHeader) ∧
      (ctx.iouringMultishotRecvmsgOut op ⟨true, more, bid⟩).2.brBufs = ctx.brBufs := by
  have hread : Readable ctx op ⟨true, more, bid⟩ := by
    refine ⟨?_, hname⟩
    rw [hmsg, hlen]
    omega
  obtain ⟨hop, hslots⟩ := (iouringMultishotRecvmsgOut_decoded ctx op _).decodes rfl hread
  rw [hop]
  refine ⟨?_, ?_, hslots⟩
  · rw [present, hmsg, hlen]
    dsimp only
    omega
  · rw [present, hmsg]

/-! ## A delivery -/

/-- The context in which `iouring_multishot_recvmsg_out` looks at a datagram from
`name` that the kernel has just put into the slot `bid` for the receive of `op`. -/
def delivered (ctx : IouringCtx) (op : OpId) (bid : Nat) (name pad payload : Bytes) (more : Bool)
    (tag : Nat) : IouringCtx :=
  let out := recvmsgOut (ctx.ops op).msg.msgNamelen name pad payload
  (ctx.kernel (.recv op bid out.length out more tag)).modOp op fun o =>
    { o with dataLen := out.length }

/-- `iouring_multishot_recvmsg_out` presents the whole datagram. -/
def PresentsWhole (ctx : IouringCtx) (op : OpId) (bid : Nat) (more : Bool) (payload : Bytes) :
    Prop :=
  let out := (ctx.iouringMultishotRecvmsgOut op ⟨true, more, bid⟩).2
  (out.ops op).dataLen = payload.length ∧ out.load (out.ops op).buffer payload.length = payload

theorem armed_msg {ctx ctx' : IouringCtx} {fd : Int} {op : OpId} {ops : List OpId}
    (hpool : ctx.ioOpPool = op :: ops)
    (harm : ctx.iouringSubmitMultishotRecvmsg fd = (0, ctx')) :
    (ctx'.ops op).msg = ⟨none, sizeofSockaddrStorage, 0, 0⟩ := by
  unfold IouringCtx.iouringSubmitMultishotRecvmsg at harm
  rcases ha : ctx.ioOpAlloc .udpRecv fd true with ⟨_ | op', ctx1⟩
  · simp [ha] at harm
  obtain ⟨ops', hpool', hctx1⟩ := ioOpAlloc_multi_eq ha
  obtain ⟨rfl, -⟩ := List.cons.inj (hpool.symm.trans hpool')
  simp only [ha] at harm
  have hmem := iouringSubmitMultishotRecvmsgOp_memory (ctx1.modOp op fun o =>
    { o with msg := { o.msg with msgNamelen := sizeofSockaddrStorage } }) op
  rw [harm] at hmem
  rw [hmem.1, modOp_self, hctx1]
  simp [freshOp, IoOp.zero]

/-- What is presented of a datagram that was received with an armed op: its
length is cut to the room in the slot. -/
theorem delivered_decodes {ctx : IouringCtx} {op : OpId} {r : Sqe} {name pad : Bytes}
    (payload : Bytes) {bid : Nat} (hmsg : (ctx.ops op).msg = ⟨none, sizeofSockaddrStorage, 0, 0⟩)
    (hflight : ctx.inFlight op true = some r) (hbid : bid ∈ ctx.br) (hname : 0 < name.length)
    (hpad : name.length + pad.length = sizeofSockaddrStorage) (hpos : 0 < payload.length)
    (more : Bool) (tag : Nat) :
    ∃ old, (((delivered ctx op bid name pad payload more tag).iouringMultishotRecvmsgOut op
          ⟨true, more, bid⟩).2.ops op).dataLen = (min payload.length payloadRoom : Nat) ∧
      (((delivered ctx op bid name pad payload more tag).iouringMultishotRecvmsgOut op
          ⟨true, more, bid⟩).2.ops op).buffer = some (.slot bid slotHeader) ∧
      ((delivered ctx op bid name pad payload more tag).iouringMultishotRecvmsgOut op
          ⟨true, more, bid⟩).2.brBufs bid =
        Bytes.overwrite old (recvmsgOut sizeofSockaddrStorage name pad payload) := by
  have houtlen := length_recvmsgOut payload hpad
  have hfits : (recvmsgOut sizeofSockaddrStorage name pad payload).length ≤ bufSize := by
    have hsum : slotHeader + payloadRoom = bufSize := rfl
    omega
  have hroompos : 0 < payloadRoom := by decide
  -- what the kernel leaves in the slot and in the op
  have hslot : (delivered ctx op bid name pad payload more tag).brBufs bid =
      Bytes.overwrite (ctx.brBufs bid) (recvmsgOut sizeofSockaddrStorage name pad payload) := by
    simp [delivered, IouringCtx.kernel, hflight, hbid, hmsg, IouringCtx.post,
      List.take_of_length_le hfits]
  have hheader : recvmsgHeader
      ((delivered ctx op bid name pad payload more tag).ops op).msg = slotHeader := by
    simp [delivered, IouringCtx.kernel, hflight, hbid, hmsg, IouringCtx.post]
    rfl
  have hlen : ((delivered ctx op bid name pad payload more tag).ops op).dataLen =
      (slotHeader + min payload.length payloadRoom : Nat) := by
    simp [delivered, hmsg, houtlen]
  obtain ⟨hdata, hbuffer, hbufs⟩ := iouringMultishotRecvmsgOut_decodes more hheader hlen
    (by omega) (by rw [hslot, readLe32_recvmsgOut payload _ hpad]; omega)
  exact ⟨ctx.brBufs bid, hdata, hbuffer, by rw [hbufs, hslot]⟩

/-- A datagram of a length that `iouring_submit_udp_send` accepts is presented
whole by a receive that `iouring_submit_multishot_recvmsg` armed, if and only if
it fits into a slot behind header and address. -/
theorem presentsWhole_iff {sender sender' receiver receiver' ctx : IouringCtx} {sendOp op : OpId}
    {addr : Bytes} {addrLen : Nat} {data : Option Bytes} {fd : Int} {ops : List OpId} {r : Sqe}
    {payload name pad : Bytes} {bid : Nat}
    (hsend : sender.iouringSubmitUdpSend (some sendOp) addr addrLen data payload.length =
      (0, sender'))
    (hpool : receiver.ioOpPool = op :: ops)
    (harm : receiver.iouringSubmitMultishotRecvmsg fd = (0, receiver'))
    (hop : (ctx.ops op).msg = (receiver'.ops op).msg) (hflight : ctx.inFlight op true = some r)
    (hbid : bid ∈ ctx.br) (hname : 0 < name.length)
    (hpad : name.length + pad.length = sizeofSockaddrStorage) (more : Bool) (tag : Nat) :
    PresentsWhole (delivered ctx op bid name pad payload more tag) op bid more payload ↔
      payload.length ≤ bufSize - 16 - sizeofSockaddrStorage := by
  obtain ⟨hpos, -⟩ := iouringSubmitUdpSend_len hsend
  have hmsg := hop.trans (armed_msg hpool harm)
  have hroom : bufSize - 16 - sizeofSockaddrStorage = payloadRoom := rfl
  obtain ⟨old, hlen, hbuffer, hslot⟩ :=
    delivered_decodes payload hmsg hflight hbid hname hpad (by omega) more tag
  unfold PresentsWhole
  dsimp only
  rw [hlen, hbuffer, IouringCtx.load, hslot, hroom]
  constructor
  · rintro ⟨hwhole, -⟩
    omega
  · intro hle
    exact ⟨by omega, payload_recvmsgOut payload _ hpad hle⟩

/-! ## One byte too many -/

def oneSlotRing : IouringCtx :=
  .iouringInit ⟨8, 8, 1, 1, 2, 0, 0⟩ (fun _ => true) fun _ => 1

/-- The same ring with an op for a send on socket 3. -/
def sendingRing : IouringCtx := (oneSlotRing.ioOpAlloc .udpSend 3 false).2

/-- The same ring with a receive armed on socket 3. -/
def receivingRing : IouringCtx := (oneSlotRing.iouringSubmitMultishotRecvmsg 3).2

set_option maxRecDepth 20000 in
/-- 1457 bytes can be sent, but are presented as 1456. -/
theorem oversized_not_presentsWhole :
    (sendingRing.iouringSubmitUdpSend (some 0) [127, 0, 0, 1] 4
        (some (List.replicate 1457 7)) 1457).1 = 0 ∧
      oneSlotRing.iouringSubmitMultishotRecvmsg 3 = (0, receivingRing) ∧
      ¬ PresentsWhole (delivered receivingRing 0 0 [127, 0, 0, 1] (List.replicate 124 0)
        (List.replicate 1457 7) true 0) 0 0 true (List.replicate 1457 7) := by
  refine ⟨rfl, rfl, fun hwhole => ?_⟩
  have hpad : ([127, 0, 0, 1] : Bytes).length + (List.replicate 124 (0 : UInt8)).length =
      sizeofSockaddrStorage := by simp [sizeofSockaddrStorage]
  have hflight : receivingRing.inFlight 0 true = some _ := rfl
  obtain ⟨old, hlen, -⟩ := delivered_decodes (List.replicate 1457 7)
    (show (receivingRing.ops 0).msg = ⟨none, sizeofSockaddrStorage, 0, 0⟩ from rfl) hflight
    (show 0 ∈ receivingRing.br by decide) (by decide) hpad (by simp) true 0
  have hlength := hlen.symm.trans hwhole.1
  simp only [List.length_replicate] at hlength
  revert hlength
  decide

/-- Three bytes are presented whole. -/
theorem presentsWhole_small :
    PresentsWhole (delivered receivingRing 0 0 [127, 0, 0, 1] (List.replicate 124 0) [1, 2, 3]
      true 0) 0 0 true [1, 2, 3] := by
  have hsend : sendingRing.iouringSubmitUdpSend (some 0) [127, 0, 0, 1] 4 (some [1, 2, 3])
      ([1, 2, 3] : Bytes).length = (0, _) := rfl
  have harm : oneSlotRing.iouringSubmitMultishotRecvmsg 3 = (0, receivingRing) := rfl
  have hflight : receivingRing.inFlight 0 true = some _ := rfl
  have hname : 0 < ([127, 0, 0, 1] : Bytes).length := by decide
  have hpad : ([127, 0, 0, 1] : Bytes).length + (List.replicate 124 (0 : UInt8)).length =
      sizeofSockaddrStorage := by simp [sizeofSockaddrStorage]
  exact (presentsWhole_iff hsend rfl harm rfl hflight (by decide) hname hpad true 0).mpr (by decide)

end Dataplane.Proofs
