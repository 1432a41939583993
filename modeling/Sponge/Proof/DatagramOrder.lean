import Sponge.Proof.InterfaceRun

/-!
# No datagram is lost, duplicated or overtaken

While every datagram can be serialized, the addresses that are waited for are exactly the next hops
of the waiting datagrams, and none of them is in the ARP table (`Kept`). So a datagram is sent at
once only when none waits for its next hop: `run_datagrams` — for each next hop the datagrams sent,
followed by those waiting, are those passed to `send_datagram`.
-/

namespace Sponge

open Run

namespace NetworkInterface

/-! ## Releasing datagrams that can be serialized -/

/-- **The release of serializable datagrams**: those for the address are sent in order, the others
stay. -/
theorem flushed_serializable {frame : BufferList → EthernetFrame} {srcIpAddr : UInt32}
    {waiting : List (Address × InternetDatagram)} (h : ∀ w ∈ waiting, w.2.Serializable) :
    List.Forall₂ (fun f (d : InternetDatagram) => ∃ payload, d.serialize = .ok payload ∧
        f = frame payload) (flushed frame srcIpAddr waiting).1
      ((waiting.filter fun w => w.1.ip == srcIpAddr).map Prod.snd) ∧
    (flushed frame srcIpAddr waiting).2 =
      (waiting.filter fun w => w.1.ip != srcIpAddr, .ok ()) := by
  induction waiting with
  | nil => exact ⟨.nil, rfl⟩
  | cons w rest ih =>
    obtain ⟨nextHop, dgram⟩ := w
    obtain ⟨hframes, hleft⟩ := ih fun w hw => h w (List.mem_cons_of_mem _ hw)
    by_cases hip : nextHop.ip = srcIpAddr
    · obtain ⟨payload, hser⟩ := dgram.serialize_ok_iff.2 (h _ List.mem_cons_self)
      constructor
      · simp only [flushed, Address.ipv4Numeric, hip, ↓reduceIte, hser, beq_self_eq_true,
          List.filter_cons_of_pos, List.map_cons]
        exact .cons ⟨payload, hser, rfl⟩ hframes
      · simp [flushed, Address.ipv4Numeric, hip, hser, hleft]
    · constructor
      · simpa [flushed, Address.ipv4Numeric, hip] using hframes
      · simp [flushed, Address.ipv4Numeric, hip, hleft]

/-! ## The three containers -/

/-- A call with a serializable datagram, and a tick below 5000 ms. -/
def Plain : IfaceOp → Prop
  | .sendDatagram dgram _ => dgram.Serializable
  | .tick ms => ms < 5000
  | _ => True

instance : (op : IfaceOp) → Decidable (Plain op)
  | .sendDatagram dgram _ => inferInstanceAs (Decidable dgram.Serializable)
  | .recvFrame _ => .isTrue trivial
  | .tick ms => inferInstanceAs (Decidable (ms < 5000))
  | .popFrame => .isTrue trivial

/-- The addresses that are waited for are the next hops of the waiting datagrams, and unknown. -/
structure Synced (ni : NetworkInterface) : Prop where
  waits : ∀ ip, ip ∈ ni.waitingArpResponseIpAddr ↔
    ∃ w ∈ ni.waitingArpInternetDatagrams, w.1.ip = ip
  unknown : ∀ ip ∈ ni.waitingArpResponseIpAddr, ip ∉ ni.arpTable
  serializable : ∀ w ∈ ni.waitingArpInternetDatagrams, w.2.Serializable

variable {ni ni' : NetworkInterface} {op : IfaceOp} {frames : List EthernetFrame}

theorem Synced.released (h : Synced ni) (arpMsg : ARPMessage) :
    (ni.released arpMsg).2 =
      (ni.waitingArpInternetDatagrams.filter fun w => w.1.ip != arpMsg.senderIpAddress, .ok ()) :=
  (flushed_serializable h.serializable).2

theorem Synced.waiting_learn (h : Synced ni) (arpMsg : ARPMessage) :
    (ni.learn arpMsg).waitingArpInternetDatagrams =
      ni.waitingArpInternetDatagrams.filter fun w => w.1.ip != arpMsg.senderIpAddress := by
  simp [NetworkInterface.learn, h.released]

theorem Synced.serializable_concat (h : Synced ni) {dgram : InternetDatagram}
    (hdgram : dgram.Serializable) (nextHop : Address) :
    ∀ w ∈ ni.waitingArpInternetDatagrams ++ [(nextHop, dgram)], w.2.Serializable := by
  intro w hw
  rcases List.mem_append.1 hw with hw | hw
  · exact h.serializable w hw
  · rw [List.mem_singleton.1 hw]
    exact hdgram

/-- Two interfaces with the same waiting datagrams and addresses waited for. -/
theorem Synced.of_eq (h : Synced ni)
    (hw : ni'.waitingArpInternetDatagrams = ni.waitingArpInternetDatagrams)
    (hip : ∀ ip, ip ∈ ni'.waitingArpResponseIpAddr ↔ ip ∈ ni.waitingArpResponseIpAddr)
    (htable : ∀ ip, ip ∈ ni'.arpTable → ip ∈ ni.arpTable) : Synced ni' where
  waits := by
    intro ip
    rw [hip, hw]
    exact h.waits ip
  unknown := by
    intro ip hwait hknown
    exact h.unknown ip ((hip ip).1 hwait) (htable ip hknown)
  serializable := by
    rw [hw]
    exact h.serializable

/-- **A plain call** keeps the containers in step. -/
theorem Synced.call (h : Synced ni) (hop : Plain op) (hc : Call ni op ni' frames) : Synced ni' := by
  cases hc with
  | @wait dgram nextHop hmiss hasked =>
    refine ⟨?_, h.unknown, h.serializable_concat hop nextHop⟩
    intro ip
    simp only [List.mem_append, List.mem_singleton, or_and_right, exists_or, exists_eq_left,
      ← h.waits]
    constructor
    · exact .inl
    · rintro (hip | rfl)
      · exact hip
      · exact hasked
  | @ask dgram nextHop hmiss hasked =>
    refine ⟨?_, ?_, h.serializable_concat hop nextHop⟩
    · intro ip
      simp only [AList.mem_insert, List.mem_append, List.mem_singleton, or_and_right, exists_or,
        exists_eq_left, ← h.waits]
      constructor
      · rintro (rfl | hip)
        · exact .inr rfl
        · exact .inl hip
      · rintro (hip | rfl)
        · exact .inr hip
        · exact .inl rfl
    · intro ip hip
      rcases (AList.mem_insert _).1 hip with rfl | hip
      · exact AList.lookup_eq_none.1 hmiss
      · exact h.unknown ip hip
  | send hentry hser => exact h.of_eq rfl (fun _ => Iff.rfl) (fun _ => id)
  | throw hentry hser => exact h
  | ignore hmsg => exact h
  | @learn frame arpMsg hmsg =>
    have hleft := h.waiting_learn arpMsg
    have herase : (ni.learn arpMsg).waitingArpResponseIpAddr =
        ni.waitingArpResponseIpAddr.erase arpMsg.senderIpAddress := by
      simp [NetworkInterface.learn, h.released]
    refine ⟨?_, ?_, ?_⟩
    · intro ip
      rw [herase, hleft, AList.mem_erase, h.waits]
      simp only [List.mem_filter, bne_iff_ne]
      constructor
      · rintro ⟨hne, w, hw, rfl⟩
        exact ⟨w, ⟨hw, hne⟩, rfl⟩
      · rintro ⟨w, ⟨hw, hne⟩, rfl⟩
        exact ⟨hne, w, hw, rfl⟩
    · intro ip hip hknown
      rw [herase, AList.mem_erase] at hip
      rcases (AList.mem_insert _).1 hknown with rfl | hknown
      · exact hip.1 rfl
      · exact h.unknown ip hip.2 hknown
    · intro w hw
      rw [hleft] at hw
      exact h.serializable w (List.mem_of_mem_filter hw)
  | tick hends =>
    exact h.of_eq rfl (fun _ => Table.mem_sweep_some) (fun _ => Table.mem_of_mem_sweep)
  | pop => exact h.of_eq rfl (fun _ => Iff.rfl) (fun _ => id)

/-- Nothing waits for a next hop that is in the table. -/
theorem Synced.waitingFor_of_known (h : Synced ni) {ip : UInt32} {entry : ARPEntry}
    (hentry : ni.arpTable.lookup ip = some entry) : ni.waitingFor ip = [] := by
  have hknown : ip ∈ ni.arpTable := Table.mem_iff_lookup.2 ⟨entry, hentry⟩
  rw [waitingFor, List.map_eq_nil_iff, List.filter_eq_nil_iff]
  intro w hw hip
  have hwait : ip ∈ ni.waitingArpResponseIpAddr := (h.waits ip).2 ⟨w, hw, by simpa using hip⟩
  exact h.unknown ip hwait hknown

theorem waitingFor_concat {dgram : InternetDatagram} {nextHop : Address}
    (h : ni'.waitingArpInternetDatagrams = ni.waitingArpInternetDatagrams ++ [(nextHop, dgram)])
    (ip : UInt32) :
    ni'.waitingFor ip = ni.waitingFor ip ++ (IfaceOp.sendDatagram dgram nextHop).passesFor ip := by
  rw [waitingFor, h, List.filter_append, List.map_append]
  by_cases hip : nextHop.ip = ip
  · simp [waitingFor, IfaceOp.passesFor, IfaceOp.passes, hip]
  · simp [waitingFor, IfaceOp.passesFor, IfaceOp.passes, hip]

/-- The frame carries the datagram. -/
def Carries (frame : EthernetFrame) (dgram : InternetDatagram) : Prop :=
  dgram.serialize = .ok frame.payload

/-- **Conservation in one call**: for each next hop, what is sent and what waits afterwards is what
waited before and what was passed, in this order. -/
theorem Synced.conserves (h : Synced ni) (hop : Plain op) (hc : Call ni op ni' frames)
    (ip : UInt32) :
    ∃ sent, List.Forall₂ Carries
        (if ni.nextHopOf op = ip then frames.filter EthernetFrame.isIPv4 else []) sent ∧
      sent ++ ni'.waitingFor ip = ni.waitingFor ip ++ op.passesFor ip := by
  -- a call that sends no IPv4 frame
  have hquiet : frames.filter EthernetFrame.isIPv4 = [] →
      ni'.waitingFor ip = ni.waitingFor ip ++ op.passesFor ip →
      ∃ sent, List.Forall₂ Carries
          (if ni.nextHopOf op = ip then frames.filter EthernetFrame.isIPv4 else []) sent ∧
        sent ++ ni'.waitingFor ip = ni.waitingFor ip ++ op.passesFor ip := by
    intro hnone hw
    rw [hnone, ite_self]
    exact ⟨[], .nil, hw⟩
  cases hc with
  | wait hmiss hasked => exact hquiet rfl (waitingFor_concat rfl ip)
  | ask hmiss hasked => exact hquiet (by simp) (waitingFor_concat rfl ip)
  | @send dgram nextHop entry payload hentry hser =>
    by_cases hip : nextHop.ip = ip
    · have hnone : ni.waitingFor ip = [] := h.waitingFor_of_known (hip ▸ hentry)
      refine ⟨[dgram], ?_, ?_⟩
      · rw [nextHopOf, if_pos hip]
        exact .cons hser .nil
      · change [dgram] ++ ni.waitingFor ip = _
        simp [hnone, IfaceOp.passesFor, IfaceOp.passes, hip]
    · refine ⟨[], ?_, ?_⟩
      · rw [nextHopOf, if_neg hip]
        exact .nil
      · change ni.waitingFor ip = _
        simp [IfaceOp.passesFor, IfaceOp.passes, hip]
  | throw hentry hser =>
    obtain ⟨payload, hok⟩ := IPv4Datagram.serialize_ok_iff _ |>.2 hop
    rw [hser] at hok
    cases hok
  | ignore hmsg => exact hquiet rfl (List.append_nil _).symm
  | @learn frame arpMsg hmsg =>
    have hhop : ni.nextHopOf (.recvFrame frame) = arpMsg.senderIpAddress := by
      simp [nextHopOf, hears, hmsg]
    have hleft := h.waiting_learn arpMsg
    rw [hhop, List.filter_append, filter_isIPv4_replies, filter_isIPv4_released]
    by_cases hip : arpMsg.senderIpAddress = ip
    · refine ⟨ni.waitingFor ip, ?_, ?_⟩
      · rw [if_pos hip, ← hip]
        refine (flushed_serializable h.serializable).1.imp ?_
        rintro f d ⟨payload, hser, rfl⟩
        exact hser
      · have hnone : (ni.learn arpMsg).waitingFor ip = [] := by
          rw [waitingFor, hleft, List.map_eq_nil_iff, List.filter_eq_nil_iff]
          intro w hw hwip
          simp [hip] at hw hwip
          exact hw.2 hwip
        simp [hnone, IfaceOp.passesFor, IfaceOp.passes]
    · refine ⟨[], ?_, ?_⟩
      · rw [if_neg hip]
        exact .nil
      · have hsame : (ni.learn arpMsg).waitingFor ip = ni.waitingFor ip := by
          rw [waitingFor, hleft, List.filter_filter, waitingFor]
          congr 1
          apply List.filter_congr
          intro w _
          by_cases hw : w.1.ip = ip
          · simp [hw, Ne.symm hip]
          · simp [hw]
        simp [hsame, IfaceOp.passesFor, IfaceOp.passes]
  | tick hends =>
    apply hquiet _ (List.append_nil _).symm
    simp [List.filter_map, Function.comp_def]
  | pop => exact hquiet rfl (List.append_nil _).symm

theorem Plain.short (h : Plain op) : op.Short := by
  cases op with
  | tick ms => exact h
  | _ => trivial

end NetworkInterface

namespace IfaceRun

variable {r : IfaceRun} {op : IfaceOp}

/-! ## What a call adds to the history of a next hop -/

theorem framesFor_step (r : IfaceRun) (op : IfaceOp) (ip : UInt32) :
    (r.step op).framesFor ip = r.framesFor ip ++
      if r.ni.nextHopOf op = ip then (r.ni.emitted op).filter EthernetFrame.isIPv4 else [] := by
  unfold framesFor step emissions
  rw [List.filter_append, List.map_append, List.filter_map, List.map_map]
  congr 1
  by_cases hip : r.ni.nextHopOf op = ip
  · simp [hip, Function.comp_def]
  · simp [hip, Function.comp_def]

theorem passedFor_step (r : IfaceRun) (op : IfaceOp) (ip : UInt32) :
    (r.step op).passedFor ip = r.passedFor ip ++ op.passesFor ip := by
  simp [passedFor, step, IfaceOp.passesFor]

/-! ## Runs -/

/-- The containers in step, and for each next hop the datagrams sent followed by those waiting are
those passed. -/
structure Kept (r : IfaceRun) : Prop where
  synced : r.ni.Synced
  order : ∀ ip, ∃ sent, List.Forall₂ NetworkInterface.Carries (r.framesFor ip) sent ∧
    sent ++ r.ni.waitingFor ip = r.passedFor ip

theorem Kept.new (ethernetAddress : EthernetAddress) (ipAddress : Address) :
    Kept (.new ethernetAddress ipAddress) where
  synced := by constructor <;> simp [IfaceRun.new, NetworkInterface.new]
  order := fun ip => ⟨[], .nil, rfl⟩

theorem Kept.step (h : Kept r) (hop : NetworkInterface.Plain op) : Kept (r.step op) := by
  have hcall := NetworkInterface.called (hop.short.returns r.ni)
  refine ⟨h.synced.call hop hcall, ?_⟩
  intro ip
  obtain ⟨before, hbefore, horder⟩ := h.order ip
  obtain ⟨now, hnow, hcons⟩ := h.synced.conserves hop hcall ip
  refine ⟨before ++ now, ?_, ?_⟩
  · rw [framesFor_step]
    exact List.rel_append hbefore hnow
  · rw [passedFor_step, ← horder, List.append_assoc, List.append_assoc, ← hcons]
    rfl

/-- **Nothing is lost, duplicated or overtaken** in any run whose datagrams can be serialized and
whose ticks are below 5000 ms. The addresses waited for are the next hops of the waiting datagrams
and not in the ARP table; and for each next hop the datagrams in the IPv4 frames emitted for it,
followed by those that wait for it, are those passed to `send_datagram`, in call order. -/
theorem run_datagrams (ethernetAddress : EthernetAddress) (ipAddress : Address)
    (ops : List IfaceOp) (hops : ∀ op ∈ ops, NetworkInterface.Plain op) :
    let r := exec step (new ethernetAddress ipAddress) ops
    (∀ ip, ip ∈ r.ni.waitingArpResponseIpAddr ↔
      ∃ w ∈ r.ni.waitingArpInternetDatagrams, w.1.ip = ip) ∧
    (∀ ip ∈ r.ni.waitingArpResponseIpAddr, ip ∉ r.ni.arpTable) ∧
    ∀ ip, ∃ sent, List.Forall₂ NetworkInterface.Carries (r.framesFor ip) sent ∧
      sent ++ r.ni.waitingFor ip = r.passedFor ip := by
  have hkept : Kept (exec step (new ethernetAddress ipAddress) ops) :=
    Guarded.invariant (fun r op h hop => h.step hop) (Kept.new ethernetAddress ipAddress)
      (guarded_of_mem hops _)
  exact ⟨hkept.synced.waits, hkept.synced.unknown, hkept.order⟩

/-- A datagram waits for its next hop, is released by the ARP reply, and the next one follows it. -/
def exchange : List IfaceOp :=
  let host : NetworkInterface := .new (.replicate 6 1) ⟨1, 0⟩
  let router : NetworkInterface := .new (.replicate 6 2) ⟨2, 0⟩
  let dgram : InternetDatagram := { header := { len := 20 } }
  [.sendDatagram dgram ⟨2, 0⟩, .tick 4999, .tick 4999,
    .recvFrame (router.arpReplyFrame (host.arpRequest 2)), .sendDatagram dgram ⟨2, 0⟩]

theorem datagrams_of_exchange :
    (∀ op ∈ exchange, NetworkInterface.Plain op) ∧
    let r := exec step (new (.replicate 6 1) ⟨1, 0⟩) exchange
    (∀ ip, ip ∈ r.ni.waitingArpResponseIpAddr ↔
      ∃ w ∈ r.ni.waitingArpInternetDatagrams, w.1.ip = ip) ∧
    (∀ ip ∈ r.ni.waitingArpResponseIpAddr, ip ∉ r.ni.arpTable) ∧
    ∀ ip, ∃ sent, List.Forall₂ NetworkInterface.Carries (r.framesFor ip) sent ∧
      sent ++ r.ni.waitingFor ip = r.passedFor ip :=
  ⟨by decide, run_datagrams _ _ exchange (by decide)⟩

example : (exec step (new (.replicate 6 1) ⟨1, 0⟩) exchange).ni.framesOut.map
    (fun f => (f.header.dst, f.header.type)) =
    [(ethernetBroadcast, EthernetHeader.typeARP), (ethernetBroadcast, EthernetHeader.typeARP),
      ((.replicate 6 2), EthernetHeader.typeIPv4),
      ((.replicate 6 2), EthernetHeader.typeIPv4)] := by
  decide +kernel

end IfaceRun

end Sponge
