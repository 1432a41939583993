import Sponge.NetworkInterface

/-!
# What the calls of a network interface do

One specification for each function: `flush_eq` (the loop that releases the waiting datagrams, as a
recursion over them), `recvFrame_accepted` and `recvFrame_not_accepted`, and for `tick` both
`tick_eq_some` (each table is swept once) and `tick_isSome_iff` (when it returns). `called` collects
them: every call of the owner that returns or throws is one of the cases of `Call`, with the frames
it emits.
-/

namespace Sponge

/-! ## Frames -/

namespace EthernetFrame

/-- The ARP message in a frame, if there is one that can be parsed. -/
def arpMessage (frame : EthernetFrame) : Option ARPMessage :=
  if frame.header.type = EthernetHeader.typeARP then
    match frame.payload.toBuffer with
    | .error _ => none
    | .ok buffer =>
      let (arpMsg, result) := ARPMessage.parse {} buffer
      if result ≠ .noError then none else some arpMsg
  else none

/-- An ARP request for the Ethernet address of `ip`. -/
def asks (frame : EthernetFrame) (ip : UInt32) : Bool :=
  match frame.arpMessage with
  | none => false
  | some arpMsg => arpMsg.opcode == ARPMessage.opcodeRequest && arpMsg.targetIpAddress == ip

/-- An IPv4 frame. -/
def isIPv4 (frame : EthernetFrame) : Bool := frame.header.type == EthernetHeader.typeIPv4

end EthernetFrame

namespace NetworkInterface

variable {ni : NetworkInterface}

theorem arpMessage_arpFrame {dst : EthernetAddress} {arpMsg : ARPMessage}
    (h : arpMsg.supported = true) : (ni.arpFrame dst arpMsg h).arpMessage = some arpMsg := by
  have hbytes : (Buffer.ofString (getOk arpMsg.serialize ⟨_, ARPMessage.serialize_eq h⟩)).str =
      arpMsg.bytes := by
    rw [Buffer.str_ofString, getOk_eq (ARPMessage.serialize_eq h)]
  simp [EthernetFrame.arpMessage, arpFrame, BufferList.ofString, BufferList.toBuffer,
    ARPMessage.parse_bytes {} h hbytes]

@[simp] theorem asks_arpRequestFrame (ip ip' : UInt32) :
    (ni.arpRequestFrame ip).asks ip' = (ip == ip') := by
  simp [EthernetFrame.asks, arpRequestFrame, arpMessage_arpFrame, arpRequest]

@[simp] theorem asks_arpReplyFrame (arpMsg : ARPMessage) (ip : UInt32) :
    (ni.arpReplyFrame arpMsg).asks ip = false := by
  simp [EthernetFrame.asks, arpReplyFrame, arpMessage_arpFrame, arpReply, ARPMessage.opcodeReply,
    ARPMessage.opcodeRequest]

@[simp] theorem asks_ipv4Frame (entry : ARPEntry) (payload : BufferList) (ip : UInt32) :
    (ni.ipv4Frame entry payload).asks ip = false := by
  simp [EthernetFrame.asks, EthernetFrame.arpMessage, ipv4Frame, EthernetHeader.typeIPv4,
    EthernetHeader.typeARP]

@[simp] theorem isIPv4_ipv4Frame (entry : ARPEntry) (payload : BufferList) :
    (ni.ipv4Frame entry payload).isIPv4 = true := rfl

@[simp] theorem isIPv4_arpRequestFrame (ip : UInt32) :
    (ni.arpRequestFrame ip).isIPv4 = false := rfl

@[simp] theorem isIPv4_arpReplyFrame (arpMsg : ARPMessage) :
    (ni.arpReplyFrame arpMsg).isIPv4 = false := rfl

/-! ## Releasing the waiting datagrams -/

/-- What the loop of `recv_frame` makes of the waiting datagrams, where `frame` puts a serialized
datagram in a frame: the frames it emits, the datagrams that are left and its result. -/
def flushed (frame : BufferList → EthernetFrame) (srcIpAddr : UInt32) :
    List (Address × InternetDatagram) →
      List EthernetFrame × List (Address × InternetDatagram) × Except Exn Unit
  | [] => ([], [], .ok ())
  | (nextHop, dgram) :: rest =>
    if nextHop.ipv4Numeric = srcIpAddr then
      match dgram.serialize with
      | .error e => ([], (nextHop, dgram) :: rest, .error e)
      | .ok payload =>
        let (frames, left, result) := flushed frame srcIpAddr rest
        (frame payload :: frames, left, result)
    else
      let (frames, left, result) := flushed frame srcIpAddr rest
      (frames, (nextHop, dgram) :: left, result)

theorem exists_of_mem_flushed {frame : BufferList → EthernetFrame} {srcIpAddr : UInt32}
    {waiting : List (Address × InternetDatagram)} {f : EthernetFrame}
    (hf : f ∈ (flushed frame srcIpAddr waiting).1) : ∃ payload, f = frame payload := by
  induction waiting with
  | nil => cases hf
  | cons w rest ih =>
    rw [flushed] at hf
    split at hf
    · split at hf
      · cases hf
      · rename_i payload _
        rcases List.mem_cons.1 hf with rfl | hf
        · exact ⟨payload, rfl⟩
        · exact ih hf
    · exact ih hf

theorem sendDatagram_ok {dgram : InternetDatagram} {nextHop : Address} {entry : ARPEntry}
    {payload : BufferList} (hentry : ni.arpTable.lookup nextHop.ipv4Numeric = some entry)
    (hser : dgram.serialize = .ok payload) :
    ni.sendDatagram dgram nextHop = (ni.push (ni.ipv4Frame entry payload), .ok ()) := by
  simp [sendDatagram, hentry, hser]

theorem sendDatagram_error {dgram : InternetDatagram} {nextHop : Address} {entry : ARPEntry}
    {e : Exn} (hentry : ni.arpTable.lookup nextHop.ipv4Numeric = some entry)
    (hser : dgram.serialize = .error e) : ni.sendDatagram dgram nextHop = (ni, .error e) := by
  simp [sendDatagram, hentry, hser]

/-- **The loop over the waiting datagrams**: those before position `i` stay, the others are gone
through one by one. -/
theorem flush_eq {entry : ARPEntry} {frame : BufferList → EthernetFrame} {srcIpAddr : UInt32}
    {fuel : Nat} {before rest : List (Address × InternetDatagram)}
    (hentry : ni.arpTable.lookup srcIpAddr = some entry) (hframe : ni.ipv4Frame entry = frame)
    (hwait : ni.waitingArpInternetDatagrams = before ++ rest) (hfuel : rest.length < fuel) :
    flush srcIpAddr fuel before.length ni =
      ({ ni with
        framesOut := ni.framesOut ++ (flushed frame srcIpAddr rest).1
        waitingArpInternetDatagrams := before ++ (flushed frame srcIpAddr rest).2.1 },
        (flushed frame srcIpAddr rest).2.2) := by
  induction rest generalizing ni fuel before with
  | nil =>
    obtain ⟨fuel, rfl⟩ : ∃ n, fuel = n + 1 := ⟨fuel - 1, by omega⟩
    have hi : ni.waitingArpInternetDatagrams[before.length]? = none := by simp [hwait]
    have hall : before = ni.waitingArpInternetDatagrams := by simp [hwait]
    rw [flush, hi, hall]
    simp [flushed]
  | cons w rest ih =>
    obtain ⟨nextHop, dgram⟩ := w
    obtain ⟨fuel, rfl⟩ : ∃ n, fuel = n + 1 := ⟨fuel - 1, by omega⟩
    have hrest : rest.length < fuel := by simpa using hfuel
    have hi : ni.waitingArpInternetDatagrams[before.length]? = some (nextHop, dgram) := by
      simp [hwait]
    rw [flush, hi, flushed]
    by_cases hip : nextHop.ipv4Numeric = srcIpAddr
    · have hentry' : ni.arpTable.lookup nextHop.ipv4Numeric = some entry := by rw [hip, hentry]
      cases hser : dgram.serialize with
      | error e => simp [hip, sendDatagram_error hentry' hser, ← hwait]
      | ok payload =>
        simp only [hip, ↓reduceIte, sendDatagram_ok hentry' hser, hframe]
        -- the datagram is erased, so the next one moves to this position
        rw [ih (by exact hentry) (by exact hframe) _ hrest]
        · simp [push]
        · simp [push, hwait, List.eraseIdx_append_of_length_le]
    · have hbefore : ni.waitingArpInternetDatagrams = (before ++ [(nextHop, dgram)]) ++ rest := by
        simp [hwait]
      have hnext := ih hentry hframe hbefore hrest
      simp only [List.length_append, List.length_singleton] at hnext
      simp [hip, hnext]

/-! ## Receiving a frame -/

/-- The ARP message a frame brings that the interface learns from: in a frame addressed to it or
broadcast, a request for its IP address or a reply to its Ethernet address. -/
def accepted (ni : NetworkInterface) (frame : EthernetFrame) : Option ARPMessage :=
  if frame.header.dst = ni.ethernetAddress ∨ frame.header.dst = ethernetBroadcast then
    frame.arpMessage.filter fun arpMsg => ni.isValidArpReply arpMsg || ni.isValidArpRequest arpMsg
  else none

/-- The answer to an accepted ARP message. -/
def replies (ni : NetworkInterface) (arpMsg : ARPMessage) : List EthernetFrame :=
  if ni.isValidArpRequest arpMsg then [ni.arpReplyFrame arpMsg] else []

/-- What an accepted ARP message makes of the waiting datagrams. -/
def released (ni : NetworkInterface) (arpMsg : ARPMessage) :
    List EthernetFrame × List (Address × InternetDatagram) × Except Exn Unit :=
  flushed (ni.ipv4Frame (newEntry arpMsg)) arpMsg.senderIpAddress ni.waitingArpInternetDatagrams

/-- The state after an accepted ARP message. The sender's address is still waited for if one of the
released datagrams could not be serialized. -/
def learn (ni : NetworkInterface) (arpMsg : ARPMessage) : NetworkInterface :=
  { ni with
    framesOut := ni.framesOut ++ (ni.replies arpMsg ++ (ni.released arpMsg).1)
    arpTable := ni.arpTable.insert arpMsg.senderIpAddress (newEntry arpMsg)
    waitingArpResponseIpAddr :=
      match (ni.released arpMsg).2.2 with
      | .ok () => ni.waitingArpResponseIpAddr.erase arpMsg.senderIpAddress
      | .error _ => ni.waitingArpResponseIpAddr
    waitingArpInternetDatagrams := (ni.released arpMsg).2.1 }

theorem exists_of_mem_released {arpMsg : ARPMessage} {f : EthernetFrame}
    (hf : f ∈ (ni.released arpMsg).1) : ∃ payload, f = ni.ipv4Frame (newEntry arpMsg) payload :=
  exists_of_mem_flushed hf

theorem filter_isIPv4_replies (ni : NetworkInterface) (arpMsg : ARPMessage) :
    (ni.replies arpMsg).filter EthernetFrame.isIPv4 = [] := by
  unfold replies
  split <;> simp

theorem filter_isIPv4_released (ni : NetworkInterface) (arpMsg : ARPMessage) :
    (ni.released arpMsg).1.filter EthernetFrame.isIPv4 = (ni.released arpMsg).1 := by
  rw [List.filter_eq_self]
  intro f hf
  obtain ⟨payload, rfl⟩ := exists_of_mem_released hf
  rfl

theorem releaseWaiting_eq (entry : ARPEntry) (frame : BufferList → EthernetFrame)
    {srcIpAddr : UInt32} (hentry : ni.arpTable.lookup srcIpAddr = some entry)
    (hframe : ni.ipv4Frame entry = frame) :
    ni.releaseWaiting srcIpAddr =
      ({ ni with
        framesOut :=
          ni.framesOut ++ (flushed frame srcIpAddr ni.waitingArpInternetDatagrams).1
        waitingArpResponseIpAddr :=
          match (flushed frame srcIpAddr ni.waitingArpInternetDatagrams).2.2 with
          | .ok () => ni.waitingArpResponseIpAddr.erase srcIpAddr
          | .error _ => ni.waitingArpResponseIpAddr
        waitingArpInternetDatagrams :=
          (flushed frame srcIpAddr ni.waitingArpInternetDatagrams).2.1 },
        (flushed frame srcIpAddr ni.waitingArpInternetDatagrams).2.2.map fun _ => none) := by
  have hnone : ni.waitingArpInternetDatagrams = [] ++ ni.waitingArpInternetDatagrams := rfl
  have hloop := flush_eq hentry hframe hnone (Nat.lt_succ_self _)
  simp only [List.length_nil, List.nil_append] at hloop
  rw [releaseWaiting, hloop]
  cases (flushed frame srcIpAddr ni.waitingArpInternetDatagrams).2.2 <;> rfl

theorem recvArp_valid {arpMsg : ARPMessage}
    (h : (ni.isValidArpReply arpMsg || ni.isValidArpRequest arpMsg) = true) :
    ni.recvArp arpMsg = (ni.learn arpMsg, (ni.released arpMsg).2.2.map fun _ => none) := by
  unfold recvArp learn
  simp only [h, ↓reduceIte]
  rw [releaseWaiting_eq (newEntry arpMsg) (ni.ipv4Frame (newEntry arpMsg))]
  · by_cases hreq : ni.isValidArpRequest arpMsg = true
    · simp [hreq, replies, released, push]
    · simp [hreq, replies, released]
  · exact AList.lookup_insert _
  · split <;> rfl

theorem recvArp_not_valid {arpMsg : ARPMessage}
    (h : (ni.isValidArpReply arpMsg || ni.isValidArpRequest arpMsg) = false) :
    ni.recvArp arpMsg = (ni, .ok none) := by
  have hreq : ni.isValidArpRequest arpMsg = false := by
    simp only [Bool.or_eq_false_iff] at h
    exact h.2
  simp only [recvArp]
  rw [h]
  simp [hreq]

/-- A frame that is not for the interface, or has no ARP message, leaves it as it is. -/
theorem recvFrame_eq (frame : EthernetFrame) :
    (ni.recvFrame frame).1 =
      if frame.header.dst = ni.ethernetAddress ∨ frame.header.dst = ethernetBroadcast then
        match frame.arpMessage with
        | none => ni
        | some arpMsg => (ni.recvArp arpMsg).1
      else ni := by
  unfold recvFrame EthernetFrame.arpMessage
  by_cases hdst : frame.header.dst = ni.ethernetAddress ∨ frame.header.dst = ethernetBroadcast
  · have hdst' : ¬ (frame.header.dst ≠ ni.ethernetAddress ∧
        frame.header.dst ≠ ethernetBroadcast) := by tauto
    rw [if_neg hdst', if_pos hdst]
    by_cases hip : frame.header.type = EthernetHeader.typeIPv4
    · have harp : frame.header.type ≠ EthernetHeader.typeARP := by
        rw [hip]
        decide
      rw [if_pos hip, if_neg harp]
      cases frame.payload.toBuffer with
      | error e => rfl
      | ok buffer =>
        dsimp only
        split <;> rfl
    · rw [if_neg hip]
      by_cases harp : frame.header.type = EthernetHeader.typeARP
      · rw [if_pos harp, if_pos harp]
        cases frame.payload.toBuffer with
        | error e => rfl
        | ok buffer =>
          dsimp only
          split <;> rfl
      · rw [if_neg harp, if_neg harp]
  · have hdst' : frame.header.dst ≠ ni.ethernetAddress ∧
        frame.header.dst ≠ ethernetBroadcast := by tauto
    rw [if_pos hdst', if_neg hdst]

/-- **A frame that is not accepted** changes nothing. -/
theorem recvFrame_not_accepted {frame : EthernetFrame} (h : ni.accepted frame = none) :
    (ni.recvFrame frame).1 = ni := by
  rw [recvFrame_eq]
  unfold accepted at h
  split
  · rename_i hdst
    rw [if_pos hdst] at h
    cases hmsg : frame.arpMessage with
    | none => rfl
    | some arpMsg =>
      dsimp only
      rw [recvArp_not_valid (by simpa [hmsg] using h)]
  · rfl

/-- **An accepted frame**: the message is learned from. -/
theorem recvFrame_accepted {frame : EthernetFrame} {arpMsg : ARPMessage}
    (h : ni.accepted frame = some arpMsg) : (ni.recvFrame frame).1 = ni.learn arpMsg := by
  rw [recvFrame_eq]
  unfold accepted at h
  split at h
  · rename_i hdst
    obtain ⟨hmsg, hvalid⟩ := Option.filter_eq_some_iff.1 h
    rw [if_pos hdst, hmsg]
    dsimp only
    rw [recvArp_valid hvalid]
  · cases h

/-! ## Ticks -/

/-- The countdown of a waiting address after a tick: the one that has run out is restarted, and
loses the length of the tick at once. -/
def restart (ms left : Nat) : Nat :=
  if left ≤ ms then arpResponseDefaultTtl - ms else left - ms

/-- The countdown of `ip` runs out in a tick of `ms`. -/
def runsOut (ni : NetworkInterface) (ms : Nat) (ip : UInt32) : Bool :=
  match ni.waitingArpResponseIpAddr.lookup ip with
  | none => false
  | some left => left ≤ ms

/-- The state after a tick of `ms` that returns. -/
def ticked (ni : NetworkInterface) (ms : Nat) : NetworkInterface :=
  { ni with
    framesOut := ni.framesOut ++
      (ni.waitingArpResponseIpAddr.keys.filter (ni.runsOut ms)).map ni.arpRequestFrame
    arpTable := ni.arpTable.sweep (expire ms)
    waitingArpResponseIpAddr :=
      ni.waitingArpResponseIpAddr.sweep fun left => some (restart ms left) }

theorem retry_keep {ms fuel left : Nat} {ip : UInt32} {ips : List UInt32}
    (hl : ni.waitingArpResponseIpAddr.lookup ip = some left) (hleft : ¬ left ≤ ms) :
    retry ms (fuel + 1) (ip :: ips) ni =
      retry ms fuel ips { ni with
        waitingArpResponseIpAddr := ni.waitingArpResponseIpAddr.replace ip (left - ms) } := by
  simp [retry, hl, hleft]

theorem retry_restart {ms fuel left : Nat} {ip : UInt32} {ips : List UInt32}
    (hl : ni.waitingArpResponseIpAddr.lookup ip = some left) (hleft : left ≤ ms) :
    retry ms (fuel + 1) (ip :: ips) ni =
      retry ms fuel (ip :: ips) { ni.push (ni.arpRequestFrame ip) with
        waitingArpResponseIpAddr :=
          ni.waitingArpResponseIpAddr.replace ip arpResponseDefaultTtl } := by
  simp [retry, hl, hleft, push]

/-- What a change of the countdown of `ip` leaves of the others. -/
theorem runsOut_replace {ms v : Nat} {ip ip' : UInt32} (h : ip' ≠ ip) {ni' : NetworkInterface}
    (hni' : ni'.waitingArpResponseIpAddr = ni.waitingArpResponseIpAddr.replace ip v) :
    ni'.runsOut ms ip' = ni.runsOut ms ip' := by
  simp [runsOut, hni', Table.lookup_replace_ne h]

/-- **The loop over the countdowns** when it ends: below 5000 ms, or with no countdown that runs
out. -/
theorem retry_eq {ms fuel : Nat} {ips : List UInt32} (hips : ips.Nodup)
    (hend : ms < arpResponseDefaultTtl ∨ ∀ ip ∈ ips, ni.runsOut ms ip = false)
    (hfuel : 2 * ips.length < fuel) :
    retry ms fuel ips ni =
      some { ni with
        framesOut := ni.framesOut ++ (ips.filter (ni.runsOut ms)).map ni.arpRequestFrame
        waitingArpResponseIpAddr :=
          ips.foldl (Table.visit fun left => some (restart ms left))
            ni.waitingArpResponseIpAddr } := by
  induction ips generalizing ni fuel with
  | nil =>
    obtain ⟨fuel, rfl⟩ : ∃ n, fuel = n + 1 := ⟨fuel - 1, by omega⟩
    simp [retry]
  | cons ip ips ih =>
    obtain ⟨hip, hips⟩ := List.nodup_cons.1 hips
    obtain ⟨fuel, rfl⟩ : ∃ n, fuel = n + 2 := ⟨fuel - 2, by simp at hfuel; omega⟩
    have hfuel : 2 * ips.length < fuel := by simp at hfuel; omega
    -- the rest of the loop, once the countdown of `ip` is set
    have hrest : ∀ (ni' : NetworkInterface) (v n : Nat), fuel ≤ n →
        ni'.waitingArpResponseIpAddr = ni.waitingArpResponseIpAddr.replace ip v →
        retry ms n ips ni' =
          some { ni' with
            framesOut := ni'.framesOut ++ (ips.filter (ni.runsOut ms)).map ni'.arpRequestFrame
            waitingArpResponseIpAddr :=
              ips.foldl (Table.visit fun left => some (restart ms left))
                (ni.waitingArpResponseIpAddr.replace ip v) } := by
      intro ni' v n hn hni'
      have hsame : ∀ ip' ∈ ips, ni'.runsOut ms ip' = ni.runsOut ms ip' := by
        intro ip' hip'
        exact runsOut_replace (by rintro rfl; exact hip hip') hni'
      rw [ih hips _ (by omega), List.filter_congr hsame, hni']
      apply hend.imp_right
      intro hall ip' hip'
      rw [hsame ip' hip']
      exact hall ip' (List.mem_cons_of_mem ip hip')
    cases hl : ni.waitingArpResponseIpAddr.lookup ip with
    | none =>
      have hout : ni.runsOut ms ip = false := by simp [runsOut, hl]
      have hvisit : Table.visit (fun left => some (restart ms left))
          ni.waitingArpResponseIpAddr ip = ni.waitingArpResponseIpAddr := by
        simp [Table.visit, hl]
      rw [retry]
      simp only [hl, List.foldl_cons, hvisit]
      rw [ih hips (hend.imp_right fun hall ip' hip' => hall ip' (List.mem_cons_of_mem ip hip'))
        (by omega)]
      simp [hout]
    | some left =>
      by_cases hleft : left ≤ ms
      · have hvisit : Table.visit (fun left => some (restart ms left))
            ni.waitingArpResponseIpAddr ip =
              ni.waitingArpResponseIpAddr.replace ip (arpResponseDefaultTtl - ms) :=
          Table.visit_some hl (by simp [restart, hleft])
        have hout : ni.runsOut ms ip = true := by simp [runsOut, hl, hleft]
        have hms : ms < arpResponseDefaultTtl := by
          rcases hend with hms | hall
          · exact hms
          · simp [hall ip List.mem_cons_self] at hout
        have hmem : ip ∈ ni.waitingArpResponseIpAddr := AList.lookup_isSome.1 (by simp [hl])
        -- the restarted entry is visited again, and this time it has not run out
        rw [retry_restart hl hleft, retry_keep (Table.lookup_replace_self hmem) (by omega),
          hrest _ _ _ (Nat.le_refl fuel) (Table.replace_replace _ _ _ _)]
        simp [hout, hvisit, push, arpRequestFrame, arpFrame, arpRequest]
      · have hvisit : Table.visit (fun left => some (restart ms left))
            ni.waitingArpResponseIpAddr ip =
              ni.waitingArpResponseIpAddr.replace ip (left - ms) :=
          Table.visit_some hl (by simp [restart, hleft])
        have hout : ni.runsOut ms ip = false := by simp [runsOut, hl, hleft]
        rw [retry_keep hl hleft, hrest _ (left - ms) _ (Nat.le_succ fuel) rfl]
        simp [hout, hvisit, arpRequestFrame, arpFrame, arpRequest]

/-- **A tick that returns** sweeps both tables once. -/
theorem tick_eq_some {ms : Nat}
    (h : ms < arpResponseDefaultTtl ∨ ∀ ip, ni.runsOut ms ip = false) :
    ni.tick ms = some (ni.ticked ms) := by
  unfold tick ticked
  rw [retry_eq ni.waitingArpResponseIpAddr.keys_nodup _ (Nat.lt_succ_self _)]
  · rfl
  · exact h.imp_right fun hall ip _ => hall ip

/-- **A tick that does not return**: it finds a countdown run out and is not shorter than the
restarted one, so that it finds this one run out again, however long it goes on. -/
theorem retry_eq_none {ms : Nat} (hms : arpResponseDefaultTtl ≤ ms) {ip : UInt32}
    {ips : List UInt32} (hip : ip ∈ ips) (hout : ni.runsOut ms ip = true) (fuel : Nat) :
    retry ms fuel ips ni = none := by
  induction fuel generalizing ni ips with
  | zero => rfl
  | succ fuel ih =>
    cases ips with
    | nil => cases hip
    | cons ip₁ ips =>
      have htail : ip ≠ ip₁ → ip ∈ ips := fun hne => (List.mem_cons.1 hip).resolve_left hne
      cases hl : ni.waitingArpResponseIpAddr.lookup ip₁ with
      | none =>
        have hne : ip ≠ ip₁ := by
          rintro rfl
          simp [runsOut, hl] at hout
        rw [retry]
        simp only [hl]
        exact ih (htail hne) hout
      | some left =>
        by_cases hleft : left ≤ ms
        · rw [retry_restart hl hleft]
          apply ih hip
          by_cases hne : ip = ip₁
          · subst hne
            have hmem : ip ∈ ni.waitingArpResponseIpAddr := AList.lookup_isSome.1 (by simp [hl])
            simp [runsOut, Table.lookup_replace_self hmem, hms]
          · rw [runsOut_replace hne rfl]
            exact hout
        · have hne : ip ≠ ip₁ := by
            rintro rfl
            simp [runsOut, hl, hleft] at hout
          rw [retry_keep hl hleft]
          apply ih (htail hne)
          rw [runsOut_replace hne rfl]
          exact hout

/-- **When a tick returns**: below 5000 ms, or with no countdown that runs out. -/
theorem tick_isSome_iff {ms : Nat} :
    (ni.tick ms).isSome ↔ ms < arpResponseDefaultTtl ∨ ∀ ip, ni.runsOut ms ip = false := by
  constructor
  · intro h
    by_contra hnot
    simp only [not_or, Nat.not_lt, not_forall, Bool.not_eq_false] at hnot
    obtain ⟨hms, ip, hout⟩ := hnot
    have hip : ip ∈ ni.waitingArpResponseIpAddr.keys := by
      by_contra hip
      simp [runsOut, AList.lookup_eq_none.2 hip] at hout
    have hout' : { ni with arpTable := ni.arpTable.sweep (expire ms) }.runsOut ms ip = true := hout
    have hnone : ni.tick ms = none := retry_eq_none hms hip hout' _
    rw [hnone] at h
    cases h
  · intro h
    simp [tick_eq_some h]

end NetworkInterface

/-! ## The calls of the owner -/

/-- A tick below 5000 ms, or another call. -/
def IfaceOp.Short : IfaceOp → Prop
  | .tick ms => ms < 5000
  | _ => True

instance : (op : IfaceOp) → Decidable op.Short
  | .sendDatagram _ _ => .isTrue trivial
  | .recvFrame _ => .isTrue trivial
  | .tick ms => inferInstanceAs (Decidable (ms < 5000))
  | .popFrame => .isTrue trivial

theorem IfaceOp.Short.returns {op : IfaceOp} (h : op.Short) (ni : NetworkInterface) :
    ni.Returns op := by
  cases op with
  | tick ms => exact NetworkInterface.tick_isSome_iff.2 (.inl h)
  | _ => trivial

namespace NetworkInterface

variable {ni : NetworkInterface}

/-- The frames a call emits: those it adds behind the ones already queued. -/
def emitted (ni : NetworkInterface) (op : IfaceOp) : List EthernetFrame :=
  (ni.step op).framesOut.drop ni.framesOut.length

/-- What a call that returns or throws does, with the frames it emits. -/
inductive Call (ni : NetworkInterface) : IfaceOp → NetworkInterface → List EthernetFrame → Prop
  /-- `send_datagram` without a table entry, the address having been asked for. -/
  | wait {dgram : InternetDatagram} {nextHop : Address}
      (hmiss : ni.arpTable.lookup nextHop.ip = none)
      (hasked : nextHop.ip ∈ ni.waitingArpResponseIpAddr) :
      Call ni (.sendDatagram dgram nextHop)
        { ni with
          waitingArpInternetDatagrams :=
            ni.waitingArpInternetDatagrams ++ [(nextHop, dgram)] } []
  /-- `send_datagram` without a table entry, asking for the address. -/
  | ask {dgram : InternetDatagram} {nextHop : Address}
      (hmiss : ni.arpTable.lookup nextHop.ip = none)
      (hasked : nextHop.ip ∉ ni.waitingArpResponseIpAddr) :
      Call ni (.sendDatagram dgram nextHop)
        { ni with
          framesOut := ni.framesOut ++ [ni.arpRequestFrame nextHop.ip]
          waitingArpResponseIpAddr :=
            ni.waitingArpResponseIpAddr.insert nextHop.ip arpResponseDefaultTtl
          waitingArpInternetDatagrams :=
            ni.waitingArpInternetDatagrams ++ [(nextHop, dgram)] }
        [ni.arpRequestFrame nextHop.ip]
  /-- `send_datagram` with a table entry. -/
  | send {dgram : InternetDatagram} {nextHop : Address} {entry : ARPEntry} {payload : BufferList}
      (hentry : ni.arpTable.lookup nextHop.ip = some entry)
      (hser : dgram.serialize = .ok payload) :
      Call ni (.sendDatagram dgram nextHop) (ni.push (ni.ipv4Frame entry payload))
        [ni.ipv4Frame entry payload]
  /-- `send_datagram` with a table entry, of a datagram that cannot be serialized. -/
  | throw {dgram : InternetDatagram} {nextHop : Address} {entry : ARPEntry} {e : Exn}
      (hentry : ni.arpTable.lookup nextHop.ip = some entry)
      (hser : dgram.serialize = .error e) :
      Call ni (.sendDatagram dgram nextHop) ni []
  /-- `recv_frame` of a frame that brings no ARP message to learn from. -/
  | ignore {frame : EthernetFrame} (hmsg : ni.accepted frame = none) :
      Call ni (.recvFrame frame) ni []
  /-- `recv_frame` of an accepted ARP message. -/
  | learn {frame : EthernetFrame} {arpMsg : ARPMessage} (hmsg : ni.accepted frame = some arpMsg) :
      Call ni (.recvFrame frame) (ni.learn arpMsg)
        (ni.replies arpMsg ++ (ni.released arpMsg).1)
  | tick {ms : Nat} (hends : ms < arpResponseDefaultTtl ∨ ∀ ip, ni.runsOut ms ip = false) :
      Call ni (.tick ms) (ni.ticked ms)
        ((ni.waitingArpResponseIpAddr.keys.filter (ni.runsOut ms)).map ni.arpRequestFrame)
  | pop : Call ni .popFrame { ni with framesOut := ni.framesOut.tail } []

/-- **Every call** is one of the cases of `Call`. -/
theorem called {op : IfaceOp} (h : ni.Returns op) : Call ni op (ni.step op) (ni.emitted op) := by
  have hcall : ∀ {ni' : NetworkInterface} {frames : List EthernetFrame},
      ni.step op = ni' → ni'.framesOut.drop ni.framesOut.length = frames → Call ni op ni' frames →
      Call ni op (ni.step op) (ni.emitted op) := by
    intro ni' frames hstep hframes hc
    rw [emitted, hstep, hframes]
    exact hc
  cases op with
  | sendDatagram dgram nextHop =>
    cases hl : ni.arpTable.lookup nextHop.ip with
    | none =>
      by_cases hasked : nextHop.ip ∈ ni.waitingArpResponseIpAddr
      · apply hcall _ _ (.wait hl hasked)
        · simp [step, sendDatagram, Address.ipv4Numeric, hl, hasked]
        · simp
      · apply hcall _ _ (.ask hl hasked)
        · simp [step, sendDatagram, Address.ipv4Numeric, hl, hasked, push]
        · simp
    | some entry =>
      cases hser : dgram.serialize with
      | error e =>
        apply hcall _ _ (.throw hl hser)
        · rw [step, sendDatagram_error hl hser]
        · simp
      | ok payload =>
        apply hcall _ _ (.send hl hser)
        · rw [step, sendDatagram_ok hl hser]
        · simp [push]
  | recvFrame frame =>
    cases hmsg : ni.accepted frame with
    | none =>
      apply hcall _ _ (.ignore hmsg)
      · exact recvFrame_not_accepted hmsg
      · simp
    | some arpMsg =>
      apply hcall _ _ (.learn hmsg)
      · exact recvFrame_accepted hmsg
      · simp [NetworkInterface.learn]
  | tick ms =>
    have hends := tick_isSome_iff.1 h
    apply hcall _ _ (.tick hends)
    · rw [step, tick_eq_some hends]
      rfl
    · simp [ticked]
  | popFrame =>
    apply hcall _ _ .pop
    · rfl
    · simp

theorem exists_call {op : IfaceOp} (h : ni.Returns op) :
    ∃ ni' frames, ni.step op = ni' ∧ ni.emitted op = frames ∧ Call ni op ni' frames :=
  ⟨_, _, rfl, rfl, called h⟩

end NetworkInterface

end Sponge
