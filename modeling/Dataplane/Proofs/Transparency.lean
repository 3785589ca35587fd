import Dataplane.Proofs.Passing
import Dataplane.Proofs.Ownership
import Dataplane.ProofSupport.Channel

/-!
# A chain of forwarders is a lossy channel

On each of its two ways a chain is a row of queues, one for every link and one
for every node.  The packets stand in them in the order in which they were read
from the TUN device at the beginning of the way, and as long as no loop stops
none is missing but those that the network has lost.
-/

namespace Dataplane.Model

open ProofSupport

variable {σ κ : Type} {api : Ssl σ}

structure LoopState.Idle (api : Ssl σ) (s : LoopState σ) : Prop where
  reached : ∃ (config : IouringConfig) (sqeFree : Nat → Bool) (submits : Nat → Int)
    (prog : Program σ) (running : Bool) (first : Session σ) (es : List SessionEvent),
    Session.start (IouringCtx.iouringInit config sqeFree submits) prog running = some first ∧
      first.run api es = .loop s
  status : s.status = .waiting
  inflight : ∀ r ∈ s.uring.ring.inflight, r.opcode.outgoing = false
  cq : ∀ c ∈ s.uring.ring.cq, c.req.opcode.outgoing = true ∧ 0 ≤ c.res
  unwritten : ∀ r ∈ s.uring.ring.queued, r.opcode ≠ .write

/-- Nothing is under way, and no loop has stopped. -/
structure ChainState.Quiet (chain : Chain) (s : ChainState σ) : Prop where
  flight : ∀ w, ∀ j ≤ chain.forwarders, s.flight w j = []
  waiting : ∀ i ≤ chain.forwarders + 1, (s.node i).status = .waiting
  cq : ∀ i ≤ chain.forwarders + 1, (s.node i).uring.ring.cq = []
  sends : ∀ i ≤ chain.forwarders + 1, ∀ r ∈ (s.node i).uring.ring.inflight, r.opcode ≠ .sendmsg

/-- On the way `w` the chain has submitted for writing nothing but packets that
were read, each once, unchanged and in order, and when it is quiet all of them
that the network has not lost. -/
structure ChainState.Transparent (chain : Chain) (s : ChainState σ) (w : Way) : Prop where
  numbered : (s.reads w).map Prod.fst = List.range (s.reads w).length
  inOrder : (s.written chain w).Sublist (s.reads w)
  once : ((s.written chain w).map Prod.fst).Nodup
  lengths : ∀ r ∈ (s.node (chain.hop w (chain.forwarders + 1))).uring.ring.queued,
    r.opcode = .write → r.len = r.data.length
  complete : s.Quiet chain → s.written chain w = (s.reads w).filter fun x => x.1 ∉ s.lost w

namespace IdealDtls

variable (dtls : IdealDtls api κ) (chain : Chain) (key : Way → Nat → κ)

/-- An edge client, forwarders and an edge server with connections between
neighbours, `key w j` being the key of the records on link `j` of the way `w`. -/
structure Established (node : Nat → LoopState σ) : Prop where
  client : ∃ conn tunFd, (node 0).prog = .tunUdpRun conn tunFd ∧
    dtls.Ready conn conn.udpFd (chain.name .up 0) (key .up 0) (key .down chain.forwarders)
  forwarder : ∀ i, 1 ≤ i → i ≤ chain.forwarders → ∃ inbound outbound,
    (node i).prog = .forwarderRun inbound outbound ∧ outbound.udpFd ≠ inbound.udpFd ∧
      dtls.Ready inbound inbound.udpFd (chain.name .down (chain.forwarders + 1 - i))
        (key .down (chain.forwarders + 1 - i)) (key .up (i - 1)) ∧
      dtls.Ready outbound outbound.udpFd (chain.name .up i) (key .up i)
        (key .down (chain.forwarders - i))
  server : ∃ conn tunFd, (node (chain.forwarders + 1)).prog = .tunUdpRun conn tunFd ∧
    dtls.Ready conn conn.udpFd (chain.name .down 0) (key .down 0) (key .up chain.forwarders)
  idle : ∀ i ≤ chain.forwarders + 1, (node i).Idle api

end IdealDtls

def Chain.door (chain : Chain) (key : Way → Nat → κ) (node : Nat → LoopState σ)
    (i : Nat) (w : Way) :
    Door κ :=
  if chain.hop w i ≤ chain.forwarders then
    .udp ((node i).prog.socket w) (chain.name w (chain.hop w i)) (key w (chain.hop w i))
      (key w.back (chain.forwarders - chain.hop w i))
  else .tun ((node i).prog.tun.getD 0)

namespace IdealDtls

variable (dtls : IdealDtls api κ) (chain : Chain) (key : Way → Nat → κ)
  (door : Nat → Way → Door κ) (s : ChainState σ) (w : Way)

def onLink (j : Nat) : List (Nat × Bytes) :=
  if j ≤ chain.forwarders then (s.flight w j).map fun x => (x.1, dtls.plain (key w j) x.2) else []

/-- The packets that are in the `j`-th node of a way or on the link behind it. -/
def segment (j : Nat) : List (Nat × Bytes) :=
  dtls.onLink chain key s w j ++
    dtls.inside (door (chain.hop w j)) (s.node (chain.hop w j)).uring.ring w

def channel : Channel Bytes :=
  ⟨s.reads w, s.lost w, line (dtls.segment chain key door s w) (chain.forwarders + 1)⟩

structure Chained : Prop where
  passing : ∀ i ≤ chain.forwarders + 1, dtls.Passing (door i) (s.node i)
  records : ∀ w, ∀ j ≤ chain.forwarders, ∀ x ∈ s.flight w j, dtls.record (key w j) x.2
  sound : ∀ w, (dtls.channel chain key door s w).Sound
  exact : (∀ i ≤ chain.forwarders + 1, (s.node i).Clean) →
    ∀ w, (dtls.channel chain key door s w).Exact

end IdealDtls

end Dataplane.Model

namespace Dataplane.Proofs

open ProofSupport Model Ledger

variable {σ κ : Type} {api : Ssl σ} {dtls : IdealDtls api κ} {chain : Chain}
  {key : Way → Nat → κ} {node : Nat → LoopState σ} {s : ChainState σ} {w : Way} {i j : Nat}

/-! ## Positions -/

theorem hop_le (chain : Chain) (w : Way) (h : j ≤ chain.forwarders + 1) :
    chain.hop w j ≤ chain.forwarders + 1 := by
  cases w
  · exact h
  · exact Nat.sub_le _ _

theorem hop_hop (chain : Chain) (w : Way) (h : j ≤ chain.forwarders + 1) :
    chain.hop w (chain.hop w j) = j := by
  cases w
  · rfl
  · simp only [Chain.hop]
    omega

theorem hop_back (chain : Chain) (w : Way) (j : Nat) :
    chain.hop w.back (chain.hop w j) = chain.forwarders + 1 - j := by
  cases w <;> rfl

theorem hop_ne (chain : Chain) (w : Way) {j' : Nat} (h : j ≤ chain.forwarders + 1)
    (h' : j' ≤ chain.forwarders + 1) (hne : j ≠ j') : chain.hop w j ≠ chain.hop w j' := by
  intro heq
  apply hne
  rw [← hop_hop chain w h, heq, hop_hop chain w h']

/-! ## Doors -/

theorem door_link (chain : Chain) (key : Way → Nat → κ) (node : Nat → LoopState σ)
    (w : Way) (h : j ≤ chain.forwarders) :
    chain.door key node (chain.hop w j) w = .udp ((node (chain.hop w j)).prog.socket w)
      (chain.name w j) (key w j) (key w.back (chain.forwarders - j)) := by
  rw [Chain.door, hop_hop chain w (by omega), if_pos h]

theorem door_last (chain : Chain) (key : Way → Nat → κ) (node : Nat → LoopState σ)
    (w : Way) :
    chain.door key node (chain.hop w (chain.forwarders + 1)) w =
      .tun ((node (chain.hop w (chain.forwarders + 1))).prog.tun.getD 0) := by
  rw [Chain.door, hop_hop chain w (Nat.le_refl _), if_neg (by omega)]

theorem door_front (chain : Chain) (key : Way → Nat → κ) (node : Nat → LoopState σ)
    (w : Way) (h : j ≤ chain.forwarders) :
    chain.door key node (chain.hop w (j + 1)) w.back =
      .udp ((node (chain.hop w (j + 1))).prog.socket w.back)
        (chain.name w.back (chain.forwarders - j)) (key w.back (chain.forwarders - j))
        (key w j) := by
  have hindex : chain.hop w.back (chain.hop w (j + 1)) = chain.forwarders - j := by
    rw [hop_back]
    omega
  have hkey : chain.forwarders - (chain.forwarders - j) = j := by omega
  rw [Chain.door, hindex, if_pos (Nat.sub_le _ _), back_back, hkey]

theorem door_first (chain : Chain) (key : Way → Nat → κ) (node : Nat → LoopState σ)
    (w : Way) :
    chain.door key node (chain.hop w 0) w.back =
      .tun ((node (chain.hop w 0)).prog.tun.getD 0) := by
  rw [Chain.door, hop_back, if_neg (by omega)]

theorem joins_apart {prog : Program σ} {door : Way → Door κ} (h : dtls.Joins prog door) (w : Way) :
    (door w).Apart (door w.back) := by
  cases h with
  | edge v hudp htun _ =>
      rcases eq_or_eq_back w v with rfl | rfl
      · rw [hudp, htun]
        trivial
      · rw [back_back, hudp, htun]
        trivial
  | forwarder hdown hup hfds _ _ =>
      cases w with
      | up =>
          rw [Way.back, hup, hdown]
          exact hfds
      | down =>
          rw [Way.back, hup, hdown]
          exact hfds.symm

theorem joins_opened (h : dtls.Joins (node i).prog (chain.door key node i)) (w : Way) :
    (chain.door key node i w).OpenedBy (node i).prog w := by
  by_cases hlink : chain.hop w i ≤ chain.forwarders
  · rw [Chain.door, if_pos hlink]
    rfl
  have hdoor : chain.door key node i w = .tun ((node i).prog.tun.getD 0) := if_neg hlink
  rw [hdoor]
  generalize (node i).prog = prog at h hdoor ⊢
  cases h with
  | edge _ _ _ _ => rfl
  | forwarder hdown hup _ _ _ =>
      cases w with
      | up =>
          rw [hdoor] at hup
          cases hup
      | down =>
          rw [hdoor] at hdown
          cases hdown

/-! ## The start -/

theorem established_joins (h : dtls.Established chain key node) (hi : i ≤ chain.forwarders + 1) :
    dtls.Joins (node i).prog (chain.door key node i) := by
  by_cases hclient : i = 0
  · subst hclient
    obtain ⟨conn, tunFd, hprog, hready⟩ := h.client
    have hudp := door_link chain key node .up (Nat.zero_le _)
    have htun := door_first chain key node .up
    rw [Chain.hop, hprog] at hudp htun
    rw [hprog]
    exact .edge .up hudp htun hready
  by_cases hserver : i = chain.forwarders + 1
  · subst hserver
    obtain ⟨conn, tunFd, hprog, hready⟩ := h.server
    have hudp := door_link chain key node .down (Nat.zero_le _)
    have htun := door_first chain key node .down
    rw [Chain.hop, Nat.sub_zero, hprog] at hudp htun
    rw [hprog]
    exact .edge .down hudp htun hready
  · obtain ⟨inbound, outbound, hprog, hfds, hin, hout⟩ := h.forwarder i (by omega) (by omega)
    have hfront := door_front chain key node .up (by omega : i - 1 ≤ chain.forwarders)
    have hlink := door_link chain key node .up (by omega : i ≤ chain.forwarders)
    have hpos : i - 1 + 1 = i := by omega
    have hindex : chain.forwarders - (i - 1) = chain.forwarders + 1 - i := by omega
    rw [Chain.hop, hpos, hindex, hprog] at hfront
    rw [Chain.hop, hprog] at hlink
    rw [hprog]
    exact .forwarder hfront hlink hfds hin hout

theorem idle_sound {node : LoopState σ} (h : node.Idle api) : Sound node.uring := by
  obtain ⟨config, sqeFree, submits, prog, running, first, es, hstart, hrun⟩ := h.reached
  have hgood : (first.run api es).Good := good_run api (good_start config sqeFree submits hstart) es
  rw [hrun] at hgood
  exact hgood (by rw [h.status]; rfl)

theorem established_passing (h : dtls.Established chain key node) (hi : i ≤ chain.forwarders + 1) :
    dtls.Passing (chain.door key node i) (node i) := by
  have hidle := h.idle i hi
  have hjoins := established_joins h hi
  have hsound := idle_sound hidle
  refine ⟨joins_apart hjoins, ?_, fun _ => ⟨hsound, hjoins⟩, joins_opened hjoins, ?_, ?_, ?_⟩
  · obtain ⟨held, taken, hinv⟩ := hsound
    exact hinv.stopped
  · exact fun r hr w hleaving => absurd (leaving_of_incoming (hidle.inflight r hr) _) hleaving
  · exact fun r hr hcode => absurd hcode (hidle.unwritten r hr)
  · intro c hc hin
    rw [(hidle.cq c hc).1] at hin
    cases hin

theorem idle_inside (dtls : IdealDtls api κ) {node : LoopState σ} (h : node.Idle api)
    (door : Way → Door κ) (w : Way) :
    dtls.inside door node.uring.ring w = [] := by
  have hout : ((door w).outlet node.uring.ring).filterMap (dtls.leaving (door w)) = [] := by
    apply List.filterMap_eq_nil_iff.mpr
    cases door w with
    | tun fd =>
        intro r hr
        simp [IdealDtls.leaving, h.unwritten r hr]
    | udp fd peer send recv => exact fun r hr => leaving_of_incoming (h.inflight r hr) _
  have hin : node.uring.ring.cq.filterMap (dtls.entering (door w.back)) = [] :=
    List.filterMap_eq_nil_iff.mpr fun c hc => entering_of_outgoing (h.cq c hc).1 _
  rw [IdealDtls.inside, hout, hin]
  rfl

theorem established_chained (h : dtls.Established chain key node) :
    dtls.Chained chain key (chain.door key node) (ChainState.start node) := by
  have hchannel : ∀ w, dtls.channel chain key (chain.door key node)
      (ChainState.start node) w = Channel.empty := by
    intro w
    have hnil : line (dtls.segment chain key (chain.door key node)
        (ChainState.start node) w) (chain.forwarders + 1) = [] := by
      apply line_nil
      intro j hj
      have hlink : dtls.onLink chain key (ChainState.start node) w j = [] := by
        unfold IdealDtls.onLink
        split <;> rfl
      have hinside := idle_inside dtls (h.idle _ (hop_le chain w hj))
        (chain.door key node (chain.hop w j)) w
      rw [IdealDtls.segment, hlink]
      exact hinside
    rw [IdealDtls.channel, hnil]
    rfl
  refine ⟨fun i hi => established_passing h hi, fun _ _ _ x hx => ?_, fun w => ?_, fun _ w => ?_⟩
  · cases hx
  · rw [hchannel]
    exact Channel.sound_empty
  · rw [hchannel]
    exact Channel.exact_empty

/-! ## A step of a node -/

section Act

variable {door : Nat → Way → Door κ} {e : LoopEvent}

theorem act_self (s : ChainState σ) (i : Nat) (e : LoopEvent) :
    (s.act api chain i e).node i = (s.node i).step api e := by
  simp [ChainState.act]

theorem act_of_ne {k : Nat} (h : k ≠ i) : (s.act api chain i e).node k = s.node k := by
  simp [ChainState.act, h]

theorem segment_act_other (h : chain.hop w j ≠ i) :
    dtls.segment chain key door (s.act api chain i e) w j = dtls.segment chain key door s w j := by
  have hflight : (s.act api chain i e).flight w j = s.flight w j := if_neg fun hown => h hown.2
  rw [IdealDtls.segment, IdealDtls.segment, IdealDtls.onLink, IdealDtls.onLink,
    hflight, act_of_ne h]

theorem socket_of_door {fd : Int} {peer : Bytes} {send recv : κ} {t : LoopState σ}
    {door : Way → Door κ} (h : dtls.Passing door t) (hdoor : door w = .udp fd peer send recv) :
    t.prog.socket w = fd := by
  have hopened := h.opened w
  rwa [hdoor] at hopened

theorem act_flight (hi : chain.hop w j = i) (hj : j ≤ chain.forwarders)
    (h : dtls.Passing (chain.door key node i) (s.node i)) :
    (s.act api chain i e).flight w j = s.flight w j ++ sentBetween (s.node i).uring
      ((s.node i).step api e).uring ((node i).prog.socket w) (chain.name w j) := by
  have hsocket : (s.node i).prog.socket w = (node i).prog.socket w := by
    rw [← hi] at h ⊢
    exact socket_of_door h (door_link chain key node w hj)
  rw [← hsocket]
  exact if_pos ⟨hj, hi⟩

theorem segment_act_own (hi : chain.hop w j = i) (hj : j ≤ chain.forwarders + 1)
    (h : dtls.Passing (chain.door key node i) (s.node i)) :
    dtls.segment chain key (chain.door key node) (s.act api chain i e) w j =
      dtls.onLink chain key s w j ++
        (dtls.passed (s.node i).uring ((s.node i).step api e).uring (chain.door key node i w) ++
          dtls.inside (chain.door key node i) ((s.node i).step api e).uring.ring w) := by
  rw [IdealDtls.segment, hi, act_self, ← List.append_assoc]
  congr 1
  by_cases hlink : j ≤ chain.forwarders
  · have hdoor := door_link chain key node w hlink
    rw [hi] at hdoor
    rw [IdealDtls.onLink, IdealDtls.onLink, if_pos hlink, if_pos hlink, act_flight hi hlink h,
      List.map_append, hdoor, IdealDtls.passed]
  · obtain rfl : j = chain.forwarders + 1 := by omega
    have hdoor := door_last chain key node w
    rw [hi] at hdoor
    rw [IdealDtls.onLink, IdealDtls.onLink, if_neg hlink, if_neg hlink, hdoor]
    rfl

theorem segment_own (hi : chain.hop w j = i) : dtls.segment chain key (chain.door key node) s w j =
    dtls.onLink chain key s w j ++
      dtls.inside (chain.door key node i) (s.node i).uring.ring w := by
  rw [IdealDtls.segment, hi]

/-- A step that accounts for the packets of its node accounts for those of the
chain. -/
theorem segment_act (hpass : dtls.Passes (chain.door key node i) (s.node i) ((s.node i).step api e))
    (h : dtls.Passing (chain.door key node i) (s.node i)) (hj : j ≤ chain.forwarders + 1) :
    (dtls.segment chain key (chain.door key node) (s.act api chain i e) w j).Sublist
        (dtls.segment chain key (chain.door key node) s w j) ∧
      (((s.node i).step api e).Clean →
        dtls.segment chain key (chain.door key node) (s.act api chain i e) w j =
          dtls.segment chain key (chain.door key node) s w j) := by
  by_cases hi : chain.hop w j = i
  · have hacc := hpass.accounts w
    rw [segment_act_own hi hj h, segment_own hi]
    exact ⟨hacc.keeps.append_left _, fun hclean => by rw [hacc.exact hclean]⟩
  · rw [segment_act_other hi]
    exact ⟨List.Sublist.refl _, fun _ => rfl⟩

theorem Chained.act (h : dtls.Chained chain key (chain.door key node) s)
    (hi : i ≤ chain.forwarders + 1)
    (hpass : dtls.Passes (chain.door key node i) (s.node i) ((s.node i).step api e)) :
    dtls.Chained chain key (chain.door key node) (s.act api chain i e) where
  passing := fun k hk => by
    by_cases hki : k = i
    · rw [hki, act_self]
      exact hpass.passing
    · rw [act_of_ne hki]
      exact h.passing k hk
  records := fun w j hj x hx => by
    by_cases hown : chain.hop w j = i
    · rw [act_flight hown hj (h.passing i hi)] at hx
      rcases List.mem_append.mp hx with hx | hx
      · exact h.records w j hj x hx
      · have hdoor := door_link chain key node w hj
        rw [hown] at hdoor
        exact (hpass.accounts w).records _ _ _ _ hdoor x hx
    · have hflight : (s.act api chain i e).flight w j = s.flight w j :=
        if_neg fun hboth => hown hboth.2
      rw [hflight] at hx
      exact h.records w j hj x hx
  sound := fun w => (h.sound w).leak
    (line_sublist fun j hj => (segment_act hpass (h.passing i hi) hj).1)
  exact := fun hclean w => by
    have hown : ((s.node i).step api e).Clean := by
      have hnode := hclean i hi
      rwa [act_self] at hnode
    have hbefore : ∀ k ≤ chain.forwarders + 1, (s.node k).Clean := by
      intro k hk
      by_cases hki : k = i
      · rw [hki]
        exact hpass.clean hown
      · have hnode := hclean k hk
        rwa [act_of_ne hki] at hnode
    have hexact := h.exact hbefore w
    have hline : line (dtls.segment chain key (chain.door key node) (s.act api chain i e) w)
        (chain.forwarders + 1) =
          line (dtls.segment chain key (chain.door key node) s w) (chain.forwarders + 1) :=
      line_congr fun j hj => (segment_act hpass (h.passing i hi) hj).2 hown
    rw [IdealDtls.channel, hline]
    exact hexact

/-! ## Arrivals -/

theorem segment_arrives {m : Nat} {x : Nat × Bytes} (hm : m ≤ chain.forwarders + 1)
    (h : dtls.Passing (chain.door key node (chain.hop w m)) (s.node (chain.hop w m)))
    (harr : Arrives dtls (chain.door key node (chain.hop w m)) (s.node (chain.hop w m))
      ((s.node (chain.hop w m)).step api e) w x) :
    dtls.segment chain key (chain.door key node) (s.act api chain (chain.hop w m) e) w m =
        dtls.segment chain key (chain.door key node) s w m ++ [x] ∧
      ∀ v, ∀ j ≤ chain.forwarders + 1, (v = w → j ≠ m) →
        dtls.segment chain key (chain.door key node) (s.act api chain (chain.hop w m) e) v j =
          dtls.segment chain key (chain.door key node) s v j := by
  constructor
  · rw [segment_act_own rfl hm h, segment_own rfl, passed_of_eq harr.wire, List.nil_append,
      harr.inside, List.append_assoc]
  · intro v j hj hother
    by_cases hi : chain.hop v j = chain.hop w m
    · rcases eq_or_eq_back v w with rfl | rfl
      · exact absurd hi (hop_ne chain v hj hm (hother rfl))
      · rw [segment_act_own hi hj h, segment_own hi, passed_of_eq harr.wire, List.nil_append,
          harr.other]
    · exact segment_act_other hi

theorem read_arrives
    (h : dtls.Passing (chain.door key node (chain.hop w 0)) (s.node (chain.hop w 0)))
    {op : OpId} {r : Sqe} (hr : (s.node (chain.hop w 0)).uring.inFlight op false = some r)
    (hcode : r.opcode = .read) (htun : (s.node (chain.hop w 0)).prog.tun = some r.fd)
    {packet : Bytes} (hfits : packet.length ≤ r.len) (hpos : 1 ≤ packet.length)
    (hle : packet.length ≤ 1400) (number : Nat) :
    Arrives dtls (chain.door key node (chain.hop w 0)) (s.node (chain.hop w 0))
      ((s.node (chain.hop w 0)).step api
        (.kernel (.complete op packet.length packet [] number))) w (number, packet) := by
  have hpost := complete_posted hr packet.length packet [] number
  have harrived : IouringCtx.arrived r packet.length packet = packet := by
    simp [IouringCtx.arrived, hcode, List.take_of_length_le hfits]
  simp only [harrived, hcode, Opcode.outgoing, Bool.false_eq_true, if_false] at hpost
  have hdoor := door_first chain key node w
  have hopened := h.opened w.back
  rw [hdoor] at hopened
  have hfd : r.fd = (node (chain.hop w 0)).prog.tun.getD 0 :=
    Option.some.inj (htun.symm.trans hopened)
  have henter : dtls.Enters ⟨r, packet.length, ⟨false, false, 0⟩, packet, number⟩
      (chain.door key node (chain.hop w 0) w.back) := by
    rw [hdoor]
    exact .tun hcode hfd hpos hle
  apply Passing.arrives h hpost (by simp [hcode, Opcode.outgoing]) rfl henter
  rw [hdoor]
  simp [IdealDtls.entering, hcode, hfd]

theorem slot_payload {name pad d : Bytes} {k : κ}
    (hname : name.length + pad.length = sizeofSockaddrStorage) (hrecord : dtls.record k d) :
    (recvmsgOut sizeofSockaddrStorage name pad d).length ≤ bufSize ∧
      (recvmsgOut sizeofSockaddrStorage name pad d).drop slotHeader = d := by
  have hover := dtls.overhead hrecord
  have hle := dtls.le hrecord
  have hroom : payloadRoom = 1456 := rfl
  have hheader : slotHeader = 144 := rfl
  have hsize : bufSize = 1600 := rfl
  constructor
  · rw [length_recvmsgOut d hname]
    omega
  · obtain ⟨front, hfront, heq⟩ := recvmsgOut_eq d hname
    rw [heq, ← hfront, List.drop_left]
    exact List.take_of_length_le (by omega)

theorem deliver_arrives (hj : j ≤ chain.forwarders)
    (h : dtls.Passing (chain.door key node (chain.hop w (j + 1))) (s.node (chain.hop w (j + 1))))
    {op : OpId} {r : Sqe} (hr : (s.node (chain.hop w (j + 1))).uring.inFlight op true = some r)
    (hfd : r.fd = (s.node (chain.hop w (j + 1))).prog.socket w.back) {bid : Nat}
    (hbid : bid ∈ (s.node (chain.hop w (j + 1))).uring.br) {name pad d : Bytes}
    (hname : name.length + pad.length = sizeofSockaddrStorage) (hrecord : dtls.record (key w j) d)
    (more : Bool) (number : Nat) :
    let out := recvmsgOut ((s.node (chain.hop w (j + 1))).uring.ops op).msg.msgNamelen name pad d
    Arrives dtls (chain.door key node (chain.hop w (j + 1))) (s.node (chain.hop w (j + 1)))
      ((s.node (chain.hop w (j + 1))).step api
        (.kernel (.recv op bid out.length out more number))) w
      (number, dtls.plain (key w j) d) := by
  intro out
  have hmsg : ((s.node (chain.hop w (j + 1))).uring.ops op).msg.msgNamelen =
      sizeofSockaddrStorage := by
    obtain ⟨held, taken, hinv⟩ := h.stopped
    obtain ⟨hactive, rfl, hmulti⟩ := mem_of_inFlight hr
    have hok := (hinv.inflight r (List.mem_append_left _ hactive)).1
    exact (hok.multi (by simpa using hmulti)).msgNamelen
  obtain ⟨hlen, hpayload⟩ := slot_payload hname hrecord
  rw [← hmsg] at hlen hpayload
  have hcode : r.opcode = .recvmsgMultishot := by
    obtain ⟨-, -, hmulti⟩ := mem_of_inFlight hr
    simpa using hmulti
  have hpost := recv_posted hr hbid out.length out more number
  rw [List.take_of_length_le hlen] at hpost
  have hdoor := door_front chain key node w hj
  have hsocket := socket_of_door h hdoor
  have hdatagram : (⟨r, out.length, ⟨true, more, bid⟩, out, number⟩ : Cqe).payload = d := by
    simp only [Cqe.payload, hcode, if_true]
    exact hpayload
  have henter : dtls.Enters ⟨r, out.length, ⟨true, more, bid⟩, out, number⟩
      (chain.door key node (chain.hop w (j + 1)) w.back) := by
    rw [hdoor]
    refine .udp hcode (hfd.trans hsocket) ?_
    rw [hdatagram]
    exact hrecord
  have hentering : dtls.entering (chain.door key node (chain.hop w (j + 1)) w.back)
      ⟨r, out.length, ⟨true, more, bid⟩, out, number⟩ = some (number, dtls.plain (key w j) d) := by
    rw [hdoor] at henter ⊢
    rw [(Enters.entering_udp henter rfl).2.2.2, hdatagram]
  exact Passing.arrives h hpost (by simp [hcode, Opcode.outgoing]) rfl henter hentering

end Act

/-! ## Events -/

section Events

variable {s' : ChainState σ} {ds : List (Nat × Bytes)}

theorem setFlight_self (s : ChainState σ) (w : Way) (j : Nat) (ds : List (Nat × Bytes)) :
    (s.setFlight w j ds).flight w j = ds := by
  simp [ChainState.setFlight]

theorem setFlight_other {v : Way} {k : Nat} (h : v = w → k ≠ j) :
    (s.setFlight w j ds).flight v k = s.flight v k := by
  by_cases hv : v = w
  · subst hv
    simp [ChainState.setFlight, h rfl]
  · simp [ChainState.setFlight, hv]

theorem segment_setFlight_self (hj : j ≤ chain.forwarders) :
    dtls.segment chain key (chain.door key node) (s.setFlight w j ds) w j =
      ds.map (fun x => (x.1, dtls.plain (key w j) x.2)) ++
        dtls.inside (chain.door key node (chain.hop w j))
          (s.node (chain.hop w j)).uring.ring w := by
  rw [IdealDtls.segment, IdealDtls.onLink, if_pos hj, setFlight_self]
  rfl

theorem segment_setFlight_other {v : Way} {k : Nat} (h : v = w → k ≠ j) :
    dtls.segment chain key (chain.door key node) (s.setFlight w j ds) v k =
      dtls.segment chain key (chain.door key node) s v k := by
  rw [IdealDtls.segment, IdealDtls.onLink, setFlight_other h]
  rfl

theorem setFlight_records {P : Way → Nat → Nat × Bytes → Prop}
    (h : ∀ v, ∀ k ≤ chain.forwarders, ∀ x ∈ s.flight v k, P v k x)
    (hds : ∀ x ∈ ds, x ∈ s.flight w j) :
    ∀ v, ∀ k ≤ chain.forwarders, ∀ x ∈ (s.setFlight w j ds).flight v k, P v k x := by
  intro v k hk x hx
  by_cases hlink : v = w → k ≠ j
  · rw [setFlight_other hlink] at hx
    exact h v k hk x hx
  · obtain ⟨rfl, rfl⟩ : v = w ∧ k = j := by simpa using hlink
    rw [setFlight_self] at hx
    exact h v k hk x (hds x hx)

theorem Chained.moves (h : dtls.Chained chain key (chain.door key node) s)
    (hpassing : ∀ i ≤ chain.forwarders + 1, dtls.Passing (chain.door key node i) (s'.node i))
    (hrecords : ∀ w, ∀ j ≤ chain.forwarders, ∀ x ∈ s'.flight w j, dtls.record (key w j) x.2)
    (hclean : ∀ i ≤ chain.forwarders + 1, (s'.node i).Clean → (s.node i).Clean)
    (hmoves : ∀ w, (dtls.channel chain key (chain.door key node) s w).Moves
      (dtls.channel chain key (chain.door key node) s' w)) :
    dtls.Chained chain key (chain.door key node) s' where
  passing := hpassing
  records := hrecords
  sound := fun w => (hmoves w).sound (h.sound w)
  exact := fun hc w =>
    (hmoves w).exact (h.sound w) (h.exact (fun i hi => hclean i hi (hc i hi)) w)

theorem moves_of_eq {α : Type*} {ch ch' : Channel α} (h : ch' = ch) : ch.Moves ch' := by
  rw [h]
  exact .keep

theorem act_arrives {e : LoopEvent} {x : Nat × Bytes}
    (h : dtls.Chained chain key (chain.door key node) s)
    (harr : Arrives dtls (chain.door key node i) (s.node i) ((s.node i).step api e) w x) :
    ∀ k ≤ chain.forwarders + 1,
      dtls.Passing (chain.door key node k) ((s.act api chain i e).node k) ∧
        (((s.act api chain i e).node k).Clean → (s.node k).Clean) := by
  intro k hk
  by_cases hki : k = i
  · rw [hki, act_self]
    exact ⟨harr.passing, harr.clean⟩
  · rw [act_of_ne hki]
    exact ⟨h.passing k hk, id⟩

theorem act_arrives_flight {e : LoopEvent} {x : Nat × Bytes}
    (harr : Arrives dtls (chain.door key node i) (s.node i) ((s.node i).step api e) w x) :
    (s.act api chain i e).flight = s.flight := by
  funext v j
  simp only [ChainState.act, sentBetween_of_eq harr.wire, List.append_nil, ite_self]

theorem Chained.read (h : dtls.Chained chain key (chain.door key node) s) {e : LoopEvent}
    {packet : Bytes}
    (harr : Arrives dtls (chain.door key node (chain.hop w 0)) (s.node (chain.hop w 0))
      ((s.node (chain.hop w 0)).step api e) w ((s.reads w).length, packet)) :
    dtls.Chained chain key (chain.door key node)
      { s.act api chain (chain.hop w 0) e with
        reads := Function.update s.reads w (s.reads w ++ [((s.reads w).length, packet)]) } := by
  have hi := hop_le chain w (Nat.zero_le _)
  obtain ⟨hown, hother⟩ := segment_arrives (Nat.zero_le _) (h.passing _ hi) harr
  refine Chained.moves h (fun i hi => (act_arrives h harr i hi).1) (fun v j hj x hx => ?_)
    (fun i hi => (act_arrives h harr i hi).2) fun v => ?_
  · refine h.records v j hj x ?_
    rwa [← act_arrives_flight harr]
  by_cases hv : v = w
  · subst hv
    have hline := line_enter (n := chain.forwarders + 1) hown fun j hj hne =>
      hother v j hj fun _ => hne
    have hmove : (dtls.channel chain key (chain.door key node) s v).Moves _ := .accept packet
    simp only [IdealDtls.channel, Function.update_self] at hmove ⊢
    rw [← hline] at hmove
    exact hmove
  · have hline := line_congr (n := chain.forwarders + 1) fun j hj =>
      hother v j hj fun heq => absurd heq hv
    apply moves_of_eq
    simp only [IdealDtls.channel, Function.update_of_ne hv]
    exact congrArg _ hline

theorem Chained.deliver (h : dtls.Chained chain key (chain.door key node) s) {e : LoopEvent}
    (hj : j ≤ chain.forwarders) {number : Nat} {d : Bytes} {rest : List (Nat × Bytes)}
    (hflight : s.flight w j = (number, d) :: rest)
    (harr : Arrives dtls (chain.door key node (chain.hop w (j + 1))) (s.node (chain.hop w (j + 1)))
      ((s.node (chain.hop w (j + 1))).step api e) w (number, dtls.plain (key w j) d)) :
    dtls.Chained chain key (chain.door key node)
      ((s.act api chain (chain.hop w (j + 1)) e).setFlight w j rest) := by
  have hnext : j + 1 ≤ chain.forwarders + 1 := by omega
  obtain ⟨hown, hother⟩ := segment_arrives hnext (h.passing _ (hop_le chain w hnext)) harr
  refine Chained.moves h (fun i hi => (act_arrives h harr i hi).1) ?_
    (fun i hi => (act_arrives h harr i hi).2) fun v => ?_
  · apply setFlight_records
    all_goals rw [act_arrives_flight harr]
    · exact h.records
    · intro x hx
      rw [hflight]
      exact List.mem_cons_of_mem _ hx
  apply moves_of_eq
  have hline : line (dtls.segment chain key (chain.door key node)
      ((s.act api chain (chain.hop w (j + 1)) e).setFlight w j rest) v) (chain.forwarders + 1) =
        line (dtls.segment chain key (chain.door key node) s v) (chain.forwarders + 1) := by
    by_cases hv : v = w
    · subst hv
      have hfront : dtls.segment chain key (chain.door key node) s v j =
          [(number, dtls.plain (key v j) d)] ++
            dtls.segment chain key (chain.door key node)
              ((s.act api chain (chain.hop v (j + 1)) e).setFlight v j rest) v j := by
        rw [segment_setFlight_self hj, act_of_ne (hop_ne chain v (by omega) hnext (by omega)),
          IdealDtls.segment, IdealDtls.onLink, if_pos hj, hflight]
        rfl
      apply line_pass (j := j) (by omega)
      · rw [segment_setFlight_other (by omega), hown, hfront, List.append_assoc]
      · intro k hk hkj hkn
        rw [segment_setFlight_other fun _ => hkj]
        exact hother v k hk fun _ => hkn
    · apply line_congr
      intro k hk
      rw [segment_setFlight_other fun heq => absurd heq hv]
      exact hother v k hk fun heq => absurd heq hv
  simp only [IdealDtls.channel, hline]
  rfl

theorem Chained.lose (h : dtls.Chained chain key (chain.door key node) s)
    (hj : j ≤ chain.forwarders) {x : Nat × Bytes} {front back : List (Nat × Bytes)}
    (hflight : s.flight w j = front ++ x :: back) :
    dtls.Chained chain key (chain.door key node)
      { s.setFlight w j (front ++ back) with
        lost := Function.update s.lost w (s.lost w ++ [x.1]) } := by
  refine Chained.moves h h.passing (setFlight_records h.records fun y hy => ?_) (fun _ _ => id)
    fun v => ?_
  · rw [hflight]
    exact ((List.sublist_cons_self x back).append_left front).subset hy
  have hother : ∀ k, (v = w → k ≠ j) →
      dtls.segment chain key (chain.door key node) (s.setFlight w j (front ++ back)) v k =
        dtls.segment chain key (chain.door key node) s v k :=
    fun k hk => segment_setFlight_other hk
  by_cases hv : v = w
  · subst hv
    have hfull : dtls.segment chain key (chain.door key node) s v j = _ := segment_own rfl
    have hleft : dtls.segment chain key (chain.door key node)
      (s.setFlight v j (front ++ back)) v j =
        _ := segment_setFlight_self hj
    rw [IdealDtls.onLink, if_pos hj, hflight, List.map_append, List.map_cons, List.append_assoc,
      List.cons_append] at hfull
    rw [List.map_append, List.append_assoc] at hleft
    obtain ⟨before, behind, hline, hline'⟩ := line_remove (n := chain.forwarders + 1) (by omega)
      hfull hleft fun k _ hk => hother k fun _ => hk
    have hmove : (dtls.channel chain key (chain.door key node) s v).Moves _ :=
      .lose before behind _ hline
    simp only [IdealDtls.channel, Function.update_self] at hmove ⊢
    rw [← hline'] at hmove
    exact hmove
  · have hline :=
      line_congr (n := chain.forwarders + 1) fun k _ => hother k fun heq => absurd heq hv
    apply moves_of_eq
    simp only [IdealDtls.channel, Function.update_of_ne hv]
    exact congrArg _ hline

/-- Every event keeps the invariant of a chain. -/
theorem Chained.step (h : dtls.Chained chain key (chain.door key node) s) (e : ChainEvent) :
    dtls.Chained chain key (chain.door key node) (s.step api chain e) := by
  cases e with
  | loop i e =>
      simp only [ChainState.step]
      split
      · rename_i hboth
        exact Chained.act h hboth.1 (Passing.step (h.passing i hboth.1) hboth.2)
      · exact h
  | read w op data =>
      simp only [ChainState.step]
      split
      · exact h
      · rename_i r hr
        split
        · rename_i hread
          obtain ⟨hcode, htun, hpos, hle⟩ := hread
          have hpassing := h.passing _ (hop_le chain w (Nat.zero_le _))
          exact Chained.read h (read_arrives hpassing hr hcode htun (by simp) hpos hle _)
        · exact h
  | deliver w j op bid pad more =>
      simp only [ChainState.step]
      split
      · rename_i number d rest r hflight hr
        split
        · rename_i hready
          obtain ⟨hj, hfd, hbid, hname⟩ := hready
          have hpassing := h.passing _ (hop_le chain w (by omega : j + 1 ≤ chain.forwarders + 1))
          have hrecord : dtls.record (key w j) d := by
            apply h.records w j hj (number, d)
            rw [hflight]
            exact List.mem_cons_self
          exact Chained.deliver h hj hflight
            (deliver_arrives hj hpassing hr hfd hbid hname hrecord more number)
        · exact h
      · exact h
  | lose w j n =>
      simp only [ChainState.step]
      split
      · exact h
      · rename_i number d hn
        split
        · rename_i hj
          obtain ⟨hlt, hx⟩ := List.getElem?_eq_some_iff.mp hn
          have hflight : s.flight w j = (s.flight w j).take n ++
              (number, d) :: (s.flight w j).drop (n + 1) := by
            rw [← hx, ← List.drop_eq_getElem_cons hlt, List.take_append_drop]
          rw [List.eraseIdx_eq_take_drop_succ]
          exact Chained.lose h hj hflight
        · exact h

theorem Chained.run (api : Ssl σ) {dtls : IdealDtls api κ}
    (h : dtls.Chained chain key (chain.door key node) s) (es : List ChainEvent) :
    dtls.Chained chain key (chain.door key node) (s.run api chain es) :=
  Execution.run_invariant (fun _ => True) (dtls.Chained chain key (chain.door key node))
    (fun _ e _ hs => Chained.step hs e) (fun _ _ => trivial) h

end Events

/-! ## What comes out -/

/-- The packets at the end of a way are those that the last node has queued for
its TUN device and those that have arrived there. -/
theorem segment_last (h : dtls.Chained chain key (chain.door key node) s) (w : Way) :
    dtls.segment chain key (chain.door key node) s w (chain.forwarders + 1) =
      s.written chain w ++ (s.node (chain.hop w (chain.forwarders + 1))).uring.ring.cq.filterMap
        (dtls.entering (chain.door key node (chain.hop w (chain.forwarders + 1)) w.back)) := by
  have hpassing := h.passing _ (hop_le chain w (Nat.le_refl _))
  have hdoor := door_last chain key node w
  have hopened : (s.node (chain.hop w (chain.forwarders + 1))).prog.tun =
      some ((node (chain.hop w (chain.forwarders + 1))).prog.tun.getD 0) := by
    have hopened := hpassing.opened w
    rwa [hdoor] at hopened
  rw [IdealDtls.segment, IdealDtls.onLink, if_neg (by omega), List.nil_append, IdealDtls.inside,
    hdoor]
  congr 1
  rw [ChainState.written, hopened, ← List.filterMap_eq_map, List.filterMap_filter]
  apply List.filterMap_congr
  intro r _
  generalize (node (chain.hop w (chain.forwarders + 1))).prog.tun.getD 0 = fd
  by_cases hr : r.opcode = .write ∧ r.fd = fd
  · rw [IdealDtls.leaving, if_pos hr, hr.1, hr.2]
    simp
  · have hskip : (r.opcode == .write && some fd == some r.fd) = false := by
      rw [Bool.and_eq_false_imp]
      intro hcode
      have hne : fd ≠ r.fd := fun heq => hr ⟨beq_iff_eq.mp hcode, heq.symm⟩
      simpa using hne
    rw [IdealDtls.leaving, if_neg hr, hskip]
    rfl

/-- A node without sends and completions has nothing for the link behind it. -/
theorem segment_quiet (hquiet : s.Quiet chain) (hj : j ≤ chain.forwarders) :
    dtls.segment chain key (chain.door key node) s w j = [] := by
  have hi := hop_le chain w (by omega : j ≤ chain.forwarders + 1)
  have hsends : (s.node (chain.hop w j)).uring.ring.inflight.filterMap
      (dtls.leaving (chain.door key node (chain.hop w j) w)) = [] := by
    apply List.filterMap_eq_nil_iff.mpr
    intro r hr
    rw [door_link chain key node w hj]
    simp [IdealDtls.leaving, hquiet.sends _ hi r hr]
  rw [IdealDtls.segment, IdealDtls.onLink, if_pos hj, hquiet.flight w j hj, IdealDtls.inside,
    hquiet.cq _ hi]
  rw [door_link chain key node w hj] at hsends ⊢
  rw [Door.outlet, hsends]
  rfl

theorem Chained.transparent (h : dtls.Chained chain key (chain.door key node) s) (w : Way) :
    s.Transparent chain w := by
  have hsound := h.sound w
  have hline : (dtls.channel chain key (chain.door key node) s w).content =
      s.written chain w ++ ((s.node (chain.hop w (chain.forwarders + 1))).uring.ring.cq.filterMap
        (dtls.entering (chain.door key node (chain.hop w (chain.forwarders + 1)) w.back)) ++
          line (dtls.segment chain key (chain.door key node) s w) chain.forwarders) := by
    rw [IdealDtls.channel, line, segment_last h, List.append_assoc]
  have hinOrder : (s.written chain w).Sublist (s.reads w) := by
    have hcontent := hsound.content
    rw [hline] at hcontent
    exact (List.sublist_append_left _ _).trans hcontent
  refine ⟨hsound.numbered, hinOrder, hsound.nodup.sublist (hinOrder.map Prod.fst),
    (h.passing _ (hop_le chain w (Nat.le_refl _))).lens, fun hquiet => ?_⟩
  have hexact : (dtls.channel chain key (chain.door key node) s w).Exact := by
    apply h.exact
    intro i hi
    constructor
    · rw [hquiet.waiting i hi]
      rfl
    · rw [hquiet.cq i hi]
      simp
  have hrest : line (dtls.segment chain key (chain.door key node) s w) chain.forwarders = [] :=
    line_nil fun j hj => segment_quiet hquiet hj
  rw [Channel.Exact, hline, hrest, hquiet.cq _ (hop_le chain w (Nat.le_refl _)),
    List.filterMap_nil, List.append_nil, List.append_nil] at hexact
  exact hexact

/-- A chain of forwarders between two edges, all connections of which are
established, is transparent in both directions, whatever happens in it. -/
theorem chain_transparent (dtls : IdealDtls api κ)
    (h : dtls.Established chain key node) (es : List ChainEvent) (w : Way) :
    ((ChainState.start node).run api chain es).Transparent chain w :=
  Chained.transparent (Chained.run api (established_chained h) es) w

/-! ## One forwarder -/

/-- A record is the packet behind a byte that stands for the key. -/
def keyedSsl : Ssl (UInt8 × UInt8) where
  doHandshake := fun ssl rbio => ⟨1, .none, [], rbio, [], ssl⟩
  read := fun ssl rbio n =>
    if rbio.head? = some ssl.2 then
      ⟨(rbio.tail.take n).length, .none, rbio.tail.take n, [], [], ssl⟩
    else ⟨-1, .other, [], [], [], ssl⟩
  write := fun ssl rbio data => ⟨data.length, .none, [], rbio, ssl.1 :: data, ssl⟩

def keyedDtls : IdealDtls keyedSsl UInt8 where
  established := fun k k' ssl => ssl = (k, k')
  record := fun k d => d.head? = some k ∧ 1 ≤ d.tail.length ∧ d.tail.length ≤ 1400
  plain := fun _ d => d.tail
  pos := fun h => h.2.1
  le := fun h => h.2.2
  shorter := fun h => by simp
  overhead := fun h => by simp; omega
  write := by
    rintro k k' ssl data rfl hpos hle
    refine ⟨?_, rfl, ⟨rfl, hpos, hle⟩, rfl, rfl⟩
    show (0 : Int) < data.length
    omega
  read := by
    rintro k k' ssl d n rfl ⟨hhead, -, -⟩ hn
    simp only [keyedSsl, hhead, if_true, List.take_of_length_le hn, and_self]

def relayChain : Chain where
  forwarders := 1
  name := fun w j => match w, j with
    | .up, 0 => [10, 0, 0, 1]
    | .up, _ => [10, 0, 0, 3]
    | .down, 0 => [10, 0, 0, 2]
    | .down, _ => [10, 0, 0, 0]

def relayKey : Way → Nat → UInt8
  | .up, 0 => 1
  | .up, _ => 2
  | .down, 0 => 3
  | .down, _ => 4

def relayConn (fd : Int) (addr : Bytes) (send recv : UInt8) : Connection (UInt8 × UInt8) :=
  ⟨fd, .client, (send, recv), [], [], addr, 4, .handshaking⟩

def relayProgram : Nat → Program (UInt8 × UInt8)
  | 0 => .tunUdpRun (relayConn 3 [10, 0, 0, 1] 1 4) 5
  | 1 => .forwarderRun (relayConn 3 [10, 0, 0, 0] 4 1) (relayConn 4 [10, 0, 0, 3] 2 3)
  | _ => .tunUdpRun (relayConn 3 [10, 0, 0, 2] 3 2) 5

def relayRing : IouringCtx := IouringCtx.iouringInit smallConfig (fun _ => true) fun _ => 1

def relaySession (i : Nat) : Session (UInt8 × UInt8) :=
  (Session.start relayRing (relayProgram i) true).getD (.returned relayRing)

def relayNode (i : Nat) : LoopState (UInt8 × UInt8) :=
  match (relaySession i).run keyedSsl [.call, .proceed, .call, .proceed] with
  | .loop s => s
  | _ => .start relayRing (relayProgram i) true

def relayOnce : List ChainEvent :=
  [.read .up 1 [69, 1, 2], .loop 0 .wake, .loop 0 (.kernel (.complete 3 4 [] [] 0)),
    .deliver .up 0 0 0 (List.replicate 124 0) true, .loop 1 .wake,
    .loop 1 (.kernel (.complete 2 4 [] [] 0)), .deliver .up 1 0 0 (List.replicate 124 0) true,
    .loop 2 .wake, .loop 0 .wake, .loop 1 .wake]

theorem relay_idle {i : Nat} (hi : i ≤ 2) : (relayNode i).Idle keyedSsl := by
  have hnode : i = 0 ∨ i = 1 ∨ i = 2 := by omega
  constructor
  case reached =>
    refine ⟨smallConfig, fun _ => true, fun _ => 1, relayProgram i, true, relaySession i,
      [.call, .proceed, .call, .proceed], ?_⟩
    rcases hnode with rfl | rfl | rfl <;> exact ⟨rfl, rfl⟩
  all_goals rcases hnode with rfl | rfl | rfl <;> decide

theorem relay_established : keyedDtls.Established relayChain relayKey relayNode where
  client := ⟨_, _, rfl, rfl, rfl, rfl, rfl, by decide, by decide⟩
  forwarder := by
    intro i hi hn
    obtain rfl : i = 1 := Nat.le_antisymm hn hi
    exact ⟨_, _, rfl, by decide, ⟨rfl, rfl, rfl, rfl, by decide, by decide⟩,
      ⟨rfl, rfl, rfl, rfl, by decide, by decide⟩⟩
  server := ⟨_, _, rfl, rfl, rfl, rfl, rfl, by decide, by decide⟩
  idle := fun _ => relay_idle

set_option maxRecDepth 4096 in
theorem chain_transparent_once :
    ((ChainState.start relayNode).run keyedSsl relayChain relayOnce).Transparent relayChain .up ∧
      ((ChainState.start relayNode).run keyedSsl relayChain relayOnce).written relayChain .up =
        [(0, [69, 1, 2])] :=
  ⟨chain_transparent keyedDtls relay_established relayOnce .up, rfl⟩

end Dataplane.Proofs
