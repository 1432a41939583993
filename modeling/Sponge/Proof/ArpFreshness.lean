import Sponge.Proof.InterfaceRun

/-!
# The ARP table is the recent history

The abstract cache knows, for each IP address, the latest accepted ARP message from it while that is
less than 30 s old. The ARP table refines it (`Recent.table`): an entry is the sender of that
message and the time it has left. So every IPv4 frame goes to the sender of a recent message, and
while there is one `send_datagram` neither waits nor asks: `run_fresh`.
-/

namespace Sponge

open Run

namespace IfaceRun

variable {r : IfaceRun} {op : IfaceOp}

/-! ## The abstract cache -/

/-- A message of the age `now - m.1`, as an entry of the table. -/
def entryOf (now : ℕ) (m : ℕ × ARPMessage) : Option ARPEntry :=
  if now < m.1 + 30000 then
    some { ethAddr := m.2.senderEthernetAddress, ttl := m.1 + 30000 - now }
  else none

/-- What the abstract cache has for an address. -/
def cached (r : IfaceRun) (ip : UInt32) : Option ARPEntry := (r.latest ip).bind (entryOf r.now)

/-- The table is the abstract cache. -/
def Recent (r : IfaceRun) : Prop := ∀ ip, r.ni.arpTable.lookup ip = r.cached ip

theorem latest_step_of_hears {arpMsg : ARPMessage} (h : r.ni.hears op = some arpMsg)
    (ip : UInt32) :
    (r.step op).latest ip =
      if arpMsg.senderIpAddress = ip then some (r.now, arpMsg) else r.latest ip := by
  by_cases hip : arpMsg.senderIpAddress = ip
  · simp [latest, step, h, hip]
  · simp [latest, step, h, hip]

theorem latest_step_of_not_hears (h : r.ni.hears op = none) (ip : UInt32) :
    (r.step op).latest ip = r.latest ip := by
  simp [latest, step, h]

theorem entryOf_now (now : ℕ) (arpMsg : ARPMessage) :
    entryOf now (now, arpMsg) = some (NetworkInterface.newEntry arpMsg) := by
  simp [entryOf, NetworkInterface.newEntry, NetworkInterface.arpEntryDefaultTtl]

/-- An entry ages as the table's do. -/
theorem entryOf_expire (now ms : ℕ) (m : ℕ × ARPMessage) :
    (entryOf now m).bind (NetworkInterface.expire ms) = entryOf (now + ms) m := by
  unfold entryOf
  by_cases hnow : now < m.1 + 30000
  · by_cases hlater : now + ms < m.1 + 30000
    · have httl : ¬ m.1 + 30000 - now ≤ ms := by omega
      have hleft : m.1 + 30000 - now - ms = m.1 + 30000 - (now + ms) := by omega
      simp [hnow, hlater, NetworkInterface.expire, httl, hleft]
    · have httl : m.1 + 30000 - now ≤ ms := by omega
      simp [hnow, hlater, NetworkInterface.expire, httl]
  · have hlater : ¬ now + ms < m.1 + 30000 := by omega
    simp [hnow, hlater]

/-! ## Calls -/

theorem Recent.new (ethernetAddress : EthernetAddress) (ipAddress : Address) :
    Recent (.new ethernetAddress ipAddress) := by
  intro ip
  simp [IfaceRun.new, NetworkInterface.new, cached, latest]

/-- **Every call** keeps the table and the abstract cache equal. -/
theorem Recent.step (h : Recent r) (hop : r.ni.Returns op) : Recent (r.step op) := by
  intro ip
  -- a call in which nothing is heard and no time passes
  have hquiet : r.ni.hears op = none → op.ms = 0 →
      (r.ni.step op).arpTable = r.ni.arpTable →
      (r.step op).ni.arpTable.lookup ip = (r.step op).cached ip := by
    intro hhears hms htable
    change (r.ni.step op).arpTable.lookup ip =
      ((r.step op).latest ip).bind (entryOf (r.now + op.ms))
    rw [htable, latest_step_of_not_hears hhears, hms]
    exact h ip
  obtain ⟨ni', frames, hni', hframes, hcall⟩ := NetworkInterface.exists_call hop
  cases hcall with
  | wait hmiss hasked => exact hquiet rfl rfl (by rw [hni'])
  | ask hmiss hasked => exact hquiet rfl rfl (by rw [hni'])
  | send hentry hser => exact hquiet rfl rfl (by rw [hni']; rfl)
  | throw hentry hser => exact hquiet rfl rfl (by rw [hni'])
  | ignore hmsg => exact hquiet hmsg rfl (by rw [hni'])
  | @learn frame arpMsg hmsg =>
    have hhears : r.ni.hears (.recvFrame frame) = some arpMsg := hmsg
    change (r.ni.step _).arpTable.lookup ip = ((r.step _).latest ip).bind (entryOf r.now)
    rw [hni', latest_step_of_hears hhears]
    change (r.ni.arpTable.insert arpMsg.senderIpAddress _).lookup ip = _
    by_cases hip : arpMsg.senderIpAddress = ip
    · subst hip
      rw [AList.lookup_insert, if_pos rfl]
      exact (entryOf_now r.now arpMsg).symm
    · rw [AList.lookup_insert_ne (Ne.symm hip), if_neg hip]
      exact h ip
  | @tick ms hends =>
    change (r.ni.step _).arpTable.lookup ip = ((r.step _).latest ip).bind (entryOf (r.now + ms))
    rw [hni', latest_step_of_not_hears rfl]
    change (r.ni.arpTable.sweep _).lookup ip = _
    rw [Table.lookup_sweep, h ip, cached, Option.bind_assoc]
    congr 1
    funext m
    exact entryOf_expire r.now ms m
  | pop => exact hquiet rfl rfl (by rw [hni'])

/-- What holds of a call. An IPv4 frame goes to the sender of the latest accepted ARP message from
its next hop, which is less than 30 s old. While there is such a message, `send_datagram` emits the
frame at once and nothing else, or throws and emits nothing when the datagram cannot be
serialized. -/
structure FreshCall (r : IfaceRun) (op : IfaceOp) : Prop where
  sent : ∀ e ∈ r.emissions op, e.frame.isIPv4 = true →
    ∃ t arpMsg, (r.step op).latest e.nextHop = some (t, arpMsg) ∧ e.time < t + 30000 ∧
      e.frame.header.dst = arpMsg.senderEthernetAddress
  atOnce : ∀ dgram nextHop, op = .sendDatagram dgram nextHop →
    ∀ t arpMsg, r.latest nextHop.ip = some (t, arpMsg) → r.now < t + 30000 →
      (dgram.Serializable → ∃ frame, r.ni.emitted op = [frame] ∧ frame.isIPv4 = true ∧
        frame.header.dst = arpMsg.senderEthernetAddress ∧ dgram.serialize = .ok frame.payload) ∧
      (¬ dgram.Serializable → r.ni.emitted op = [] ∧
        ∃ e, (r.ni.sendDatagram dgram nextHop).2 = .error e)

theorem Recent.lookup_iff (h : Recent r) {ip : UInt32} {entry : ARPEntry} :
    r.ni.arpTable.lookup ip = some entry ↔
      ∃ t arpMsg, r.latest ip = some (t, arpMsg) ∧ r.now < t + 30000 ∧
        entry = { ethAddr := arpMsg.senderEthernetAddress, ttl := t + 30000 - r.now } := by
  rw [h ip, cached, Option.bind_eq_some_iff]
  constructor
  · rintro ⟨⟨t, arpMsg⟩, hlatest, hentry⟩
    unfold entryOf at hentry
    split at hentry
    · rename_i hnow
      exact ⟨t, arpMsg, hlatest, hnow, (Option.some.inj hentry).symm⟩
    · cases hentry
  · rintro ⟨t, arpMsg, hlatest, hnow, rfl⟩
    exact ⟨(t, arpMsg), hlatest, if_pos hnow⟩

theorem Recent.sent (h : Recent r) (hop : r.ni.Returns op) {e : Emission}
    (he : e ∈ r.emissions op) (hip : e.frame.isIPv4 = true) :
    ∃ t arpMsg, (r.step op).latest e.nextHop = some (t, arpMsg) ∧ e.time < t + 30000 ∧
      e.frame.header.dst = arpMsg.senderEthernetAddress := by
  obtain ⟨frame, hframe, rfl⟩ := List.mem_map.1 he
  obtain ⟨ni', frames, hni', hframes, hcall⟩ := NetworkInterface.exists_call hop
  rw [hframes] at hframe
  cases hcall with
  | wait hmiss hasked => cases hframe
  | ask hmiss hasked =>
    rw [List.mem_singleton.1 hframe] at hip
    cases hip
  | @send dgram nextHop entry payload hentry hser =>
    obtain ⟨t, arpMsg, hlatest, hnow, rfl⟩ := h.lookup_iff.1 hentry
    refine ⟨t, arpMsg, ?_, hnow, ?_⟩
    · rw [latest_step_of_not_hears rfl]
      exact hlatest
    · rw [List.mem_singleton.1 hframe]
      rfl
  | throw hentry hser => cases hframe
  | ignore hmsg => cases hframe
  | @learn received arpMsg hmsg =>
    have hhears : r.ni.hears (.recvFrame received) = some arpMsg := hmsg
    refine ⟨r.now, arpMsg, ?_, ?_, ?_⟩
    · rw [latest_step_of_hears hhears, if_pos]
      simp [NetworkInterface.nextHopOf, NetworkInterface.hears, hmsg]
    · exact Nat.lt_add_of_pos_right (by decide)
    · rcases List.mem_append.1 hframe with hreply | hreleased
      · have hnone := List.filter_eq_nil_iff.1
          (NetworkInterface.filter_isIPv4_replies r.ni arpMsg) frame hreply
        exact absurd hip hnone
      · obtain ⟨payload, rfl⟩ := NetworkInterface.exists_of_mem_released hreleased
        rfl
  | tick hends =>
    obtain ⟨ip, -, rfl⟩ := List.mem_map.1 hframe
    cases hip
  | pop => cases hframe

theorem Recent.atOnce (h : Recent r) {dgram : InternetDatagram} {nextHop : Address} {t : ℕ}
    {arpMsg : ARPMessage} (hlatest : r.latest nextHop.ip = some (t, arpMsg))
    (hnow : r.now < t + 30000) :
    (dgram.Serializable → ∃ frame, r.ni.emitted (.sendDatagram dgram nextHop) = [frame] ∧
      frame.isIPv4 = true ∧ frame.header.dst = arpMsg.senderEthernetAddress ∧
      dgram.serialize = .ok frame.payload) ∧
    (¬ dgram.Serializable → r.ni.emitted (.sendDatagram dgram nextHop) = [] ∧
      ∃ e, (r.ni.sendDatagram dgram nextHop).2 = .error e) := by
  obtain ⟨entry, hentry, heth⟩ : ∃ entry, r.ni.arpTable.lookup nextHop.ip = some entry ∧
      entry.ethAddr = arpMsg.senderEthernetAddress :=
    ⟨_, h.lookup_iff.2 ⟨t, arpMsg, hlatest, hnow, rfl⟩, rfl⟩
  have hser := dgram.serialize_ok_iff
  cases hcase : dgram.serialize with
  | ok payload =>
    have hyes : dgram.Serializable := hser.1 ⟨payload, hcase⟩
    refine ⟨fun _ => ⟨r.ni.ipv4Frame entry payload, ?_, rfl, heth, rfl⟩,
      fun hno => absurd hyes hno⟩
    simp [NetworkInterface.emitted, NetworkInterface.step,
      NetworkInterface.sendDatagram_ok hentry hcase, NetworkInterface.push]
  | error e =>
    have hno : ¬ dgram.Serializable := by
      intro hyes
      obtain ⟨payload, hok⟩ := hser.2 hyes
      rw [hcase] at hok
      cases hok
    refine ⟨fun hyes => absurd hyes hno, fun _ => ⟨?_, e, ?_⟩⟩
    · simp [NetworkInterface.emitted, NetworkInterface.step,
        NetworkInterface.sendDatagram_error hentry hcase]
    · rw [NetworkInterface.sendDatagram_error hentry hcase]

/-! ## Runs -/

/-- **ARP cache freshness**, in every run whose ticks return: every IPv4 frame goes to the sender of
the latest accepted ARP message from its next hop, less than 30 s old; and while there is such a
message, `send_datagram` emits the frame at once, or throws when the datagram cannot be serialized,
and in neither case sends an ARP request. -/
theorem run_fresh (ethernetAddress : EthernetAddress) (ipAddress : Address) (ops : List IfaceOp)
    (hops : Guarded step (fun r op => r.ni.Returns op) (new ethernetAddress ipAddress) ops) :
    Guarded step FreshCall (new ethernetAddress ipAddress) ops := by
  apply Guarded.implies (I := Recent) _ _ (Recent.new ethernetAddress ipAddress) hops
  · intro r op h hop
    exact h.step hop
  · intro r op h hop
    constructor
    · intro e he hip
      exact h.sent hop he hip
    · rintro dgram nextHop rfl t arpMsg hlatest hnow
      exact h.atOnce hlatest hnow

/-- The address of the next hop is learned, and stays known for 29999 ms; then it is asked for. -/
def learnThenSend : List IfaceOp :=
  let host : NetworkInterface := .new (.replicate 6 1) ⟨1, 0⟩
  let router : NetworkInterface := .new (.replicate 6 2) ⟨2, 0⟩
  let dgram : InternetDatagram := { header := { len := 20 } }
  [.recvFrame (router.arpReplyFrame (host.arpRequest 2)), .tick 29999,
    .sendDatagram dgram ⟨2, 0⟩, .tick 1, .sendDatagram dgram ⟨2, 0⟩]

theorem fresh_learnThenSend :
    Guarded step (fun r op => r.ni.Returns op) (new (.replicate 6 1) ⟨1, 0⟩) learnThenSend ∧
    Guarded step FreshCall (new (.replicate 6 1) ⟨1, 0⟩) learnThenSend :=
  ⟨by decide +kernel, run_fresh _ _ _ (by decide +kernel)⟩

/-- A datagram whose payload is not of the size its header says is not sent, though the address of
the next hop was just learned: `serialize` throws. -/
theorem wrong_size_not_sent :
    let host : NetworkInterface := .new (.replicate 6 1) ⟨1, 0⟩
    let router : NetworkInterface := .new (.replicate 6 2) ⟨2, 0⟩
    let reply := router.arpReply (host.arpRequest 2)
    let r := exec step (new (.replicate 6 1) ⟨1, 0⟩)
      [.recvFrame (router.arpReplyFrame (host.arpRequest 2))]
    r.latest 2 = some (0, reply) ∧ r.now < 0 + 30000 ∧
      r.ni.emitted (.sendDatagram {} ⟨2, 0⟩) = [] := by
  decide +kernel

end IfaceRun

end Sponge
