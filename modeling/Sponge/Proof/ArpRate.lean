import Sponge.Proof.InterfaceRun

/-!
# How often an address is asked for

An ARP request starts a countdown of 5000 ms, and the next request for the same address is to come
when it has run out. A tick that finds a countdown run out restarts it and then visits it again, so
that the new countdown loses the length of this tick at once (`restart`): it is that much shorter
than 5000 ms (`Rated.running`). `run_spaced_iff`: two requests for one address are 5000 ms apart
exactly in the runs in which each tick that finds a countdown run out makes up for this loss.

A tick of 5000 ms or more finds the restarted countdown run out again, and never returns.
`tick_once_iff`: a tick returns, having asked once for each address whose countdown has run out,
exactly if it is shorter or finds no countdown run out.
-/

namespace Sponge

open Run

namespace NetworkInterface

variable {ni : NetworkInterface} {op : IfaceOp}

/-! ## The requests of a call -/

/-- The call asks for the Ethernet address of `ip`. -/
def asksIn (ni : NetworkInterface) : IfaceOp → UInt32 → Bool
  | .sendDatagram _ nextHop, ip =>
    nextHop.ip == ip && (ni.arpTable.lookup ip).isNone &&
      (ni.waitingArpResponseIpAddr.lookup ip).isNone
  | .tick ms, ip => ni.runsOut ms ip
  | _, _ => false

theorem mem_keys_of_runsOut {ms : ℕ} {ip : UInt32} (h : ni.runsOut ms ip = true) :
    ip ∈ ni.waitingArpResponseIpAddr.keys := by
  by_contra hip
  simp [runsOut, AList.lookup_eq_none.2 hip] at h

/-- Nothing is asked for a next hop that is known or waited for. -/
theorem asksIn_sendDatagram {dgram : InternetDatagram} {nextHop : Address}
    (h : nextHop.ip ∈ ni.arpTable ∨ nextHop.ip ∈ ni.waitingArpResponseIpAddr) (ip : UInt32) :
    ni.asksIn (.sendDatagram dgram nextHop) ip = false := by
  by_cases hip : nextHop.ip = ip
  · rw [hip, ← AList.lookup_isSome, ← AList.lookup_isSome, Option.isSome_iff_ne_none,
      Option.isSome_iff_ne_none] at h
    simp only [asksIn, Bool.and_eq_false_iff, Option.isNone_eq_false_iff, Option.isSome_iff_ne_none]
    tauto
  · simp [asksIn, hip]

/-- A tick asks at most once for each address. -/
theorem filter_asks_ticked (ni : NetworkInterface) (ms : ℕ) (ip : UInt32) :
    ((ni.waitingArpResponseIpAddr.keys.filter (ni.runsOut ms)).map ni.arpRequestFrame).filter
        (fun f => f.asks ip) =
      if ni.runsOut ms ip = true then [ni.arpRequestFrame ip] else [] := by
  have hnodup : (ni.waitingArpResponseIpAddr.keys.filter (ni.runsOut ms)).Nodup :=
    ni.waitingArpResponseIpAddr.keys_nodup.filter _
  simp only [List.filter_map, Function.comp_def, asks_arpRequestFrame]
  rw [List.filter_beq]
  split
  · rename_i hout
    have hmem : ip ∈ ni.waitingArpResponseIpAddr.keys.filter (ni.runsOut ms) :=
      List.mem_filter.2 ⟨mem_keys_of_runsOut hout, hout⟩
    rw [List.count_eq_one_of_mem hnodup hmem]
    rfl
  · rename_i hout
    have hnot : ip ∉ ni.waitingArpResponseIpAddr.keys.filter (ni.runsOut ms) := by
      intro hmem
      exact hout (List.mem_filter.1 hmem).2
    rw [List.count_eq_zero_of_not_mem hnot]
    rfl

/-- **The requests of a call** for one address. -/
theorem filter_asks_emitted (h : ni.Returns op) (ip : UInt32) :
    (ni.emitted op).filter (fun f => f.asks ip) =
      if ni.asksIn op ip = true then [ni.arpRequestFrame ip] else [] := by
  obtain ⟨ni', frames, hni', hframes, hcall⟩ := exists_call h
  rw [hframes]
  cases hcall with
  | wait hmiss hasked => simp [asksIn_sendDatagram (.inr hasked)]
  | @ask dgram nextHop hmiss hasked =>
    have hkey := AList.lookup_eq_none.2 hasked
    by_cases hip : nextHop.ip = ip
    · subst hip
      simp [asksIn, hmiss, hkey]
    · simp [asksIn, hip]
  | @send dgram nextHop entry payload hentry hser =>
    simp [asksIn_sendDatagram (.inl (Table.mem_iff_lookup.2 ⟨entry, hentry⟩))]
  | @throw dgram nextHop entry e hentry hser =>
    simp [asksIn_sendDatagram (.inl (Table.mem_iff_lookup.2 ⟨entry, hentry⟩))]
  | ignore hmsg => rfl
  | @learn frame arpMsg hmsg =>
    have hreplies : (ni.replies arpMsg).filter (fun f => f.asks ip) = [] := by
      unfold replies
      split <;> simp
    have hreleased : (ni.released arpMsg).1.filter (fun f => f.asks ip) = [] := by
      rw [List.filter_eq_nil_iff]
      intro f hf
      obtain ⟨payload, rfl⟩ := exists_of_mem_released hf
      simp
    simp [asksIn, hreplies, hreleased]
  | tick hends => exact filter_asks_ticked ni _ ip
  | pop => rfl

/-! ## One tick -/

/-- What a tick of `ms` should make of an interface: the table entries that have expired are gone,
and every address whose countdown has run out is asked for once. -/
structure TicksOnce (ni : NetworkInterface) (ms : ℕ) (ni' : NetworkInterface) : Prop where
  table : ∀ ip, ip ∈ ni'.arpTable ↔ ∃ entry, ni.arpTable.lookup ip = some entry ∧ ¬ entry.ttl ≤ ms
  requests : ∃ frames, ni'.framesOut = ni.framesOut ++ frames ∧
    (∀ frame ∈ frames, ∃ ip, frame = ni.arpRequestFrame ip) ∧
    ∀ ip, frames.filter (fun f => f.asks ip) =
      if ni.runsOut ms ip = true then [ni.arpRequestFrame ip] else []

theorem ticksOnce_ticked (ni : NetworkInterface) (ms : ℕ) : TicksOnce ni ms (ni.ticked ms) := by
  refine ⟨fun ip => ?_, _, rfl, fun frame hframe => ?_, filter_asks_ticked ni ms⟩
  · simp only [ticked, Table.mem_iff_lookup, Table.lookup_sweep, Option.bind_eq_some_iff, expire]
    constructor
    · rintro ⟨entry', entry, hentry, hleft⟩
      refine ⟨entry, hentry, fun hle => ?_⟩
      rw [if_pos hle] at hleft
      cases hleft
    · rintro ⟨entry, hentry, hleft⟩
      exact ⟨_, entry, hentry, if_neg hleft⟩
  · obtain ⟨ip, -, rfl⟩ := List.mem_map.1 hframe
    exact ⟨ip, rfl⟩

/-- **A tick returns and asks once** for each address whose countdown has run out, exactly if it is
shorter than 5000 ms or finds no countdown run out. -/
theorem tick_once_iff (ni : NetworkInterface) (ms : ℕ) :
    (∃ ni', ni.tick ms = some ni' ∧ TicksOnce ni ms ni') ↔
      ms < arpResponseDefaultTtl ∨ ∀ ip, ni.runsOut ms ip = false := by
  constructor
  · rintro ⟨ni', htick, -⟩
    exact tick_isSome_iff.1 (by rw [htick]; rfl)
  · intro hends
    exact ⟨ni.ticked ms, tick_eq_some hends, ticksOnce_ticked ni ms⟩

/-- **A tick of five seconds** with an address waited for does not return, however long its loop
goes on. -/
theorem five_second_tick_hangs :
    ((new (.replicate 6 1) ⟨1, 0⟩).step (.sendDatagram {} ⟨2, 0⟩)).tick 5000 = none ∧
    ∀ fuel, retry 5000 fuel [2]
      ((new (.replicate 6 1) ⟨1, 0⟩).step (.sendDatagram {} ⟨2, 0⟩)) = none := by
  refine ⟨by decide +kernel, fun fuel => ?_⟩
  exact retry_eq_none (Nat.le_refl _) List.mem_cons_self (by decide) fuel

/-! ## The countdowns of a call -/

/-- What a call makes of the countdown of an address. -/
structure Countdown (ni : NetworkInterface) (op : IfaceOp) (ni' : NetworkInterface) (ip : UInt32) :
    Prop where
  /-- It starts with a request, and has lost the time of the call. -/
  starts : ni.asksIn op ip = true → ∃ left,
    ni'.waitingArpResponseIpAddr.lookup ip = some left ∧ left + op.ms = 5000
  /-- Without a request it goes on. -/
  goesOn : ni.asksIn op ip = false → ∀ left,
    ni'.waitingArpResponseIpAddr.lookup ip = some left →
    ni.waitingArpResponseIpAddr.lookup ip = some (left + op.ms)
  /-- It ends with an entry in the table; without a countdown, the entry gets older. -/
  ends : ni'.waitingArpResponseIpAddr.lookup ip = none →
    (∃ entry, ni'.arpTable.lookup ip = some entry ∧ entry.ttl = 30000) ∨
    (ni.waitingArpResponseIpAddr.lookup ip = none ∧
      ∀ entry, ni.arpTable.lookup ip = some entry → entry.ttl ≤ op.ms ∨
        ∃ entry', ni'.arpTable.lookup ip = some entry' ∧ entry.ttl ≤ entry'.ttl + op.ms)

theorem Countdown.of_same {ni' : NetworkInterface} {ip : UInt32}
    (hasks : ni.asksIn op ip = false) (hms : op.ms = 0)
    (hwait : ni'.waitingArpResponseIpAddr.lookup ip = ni.waitingArpResponseIpAddr.lookup ip)
    (htable : ni'.arpTable.lookup ip = ni.arpTable.lookup ip) : Countdown ni op ni' ip where
  starts := by simp [hasks]
  goesOn := by
    intro _ left hleft
    rw [← hwait, hms]
    exact hleft
  ends := by
    intro hnone
    refine .inr ⟨by rw [← hwait, hnone], ?_⟩
    intro entry hentry
    exact .inr ⟨entry, by rw [htable, hentry], Nat.le_add_right _ _⟩

theorem Countdown.learn {frame : EthernetFrame} {arpMsg : ARPMessage} (ip : UInt32) :
    Countdown ni (.recvFrame frame) (ni.learn arpMsg) ip := by
  by_cases hip : ip = arpMsg.senderIpAddress
  · subst hip
    refine ⟨by simp [asksIn], ?_, ?_⟩
    · intro _ left hleft
      unfold NetworkInterface.learn at hleft
      split at hleft
      · simp at hleft
      · exact hleft
    · intro _
      exact .inl ⟨newEntry arpMsg, AList.lookup_insert _, rfl⟩
  · apply Countdown.of_same rfl rfl
    · unfold NetworkInterface.learn
      split
      · exact AList.lookup_erase_ne hip
      · rfl
    · exact AList.lookup_insert_ne hip

theorem Countdown.tick {ms : ℕ} (hms : ms < 5000) (ip : UInt32) :
    Countdown ni (.tick ms) (ni.ticked ms) ip := by
  have hwait : (ni.ticked ms).waitingArpResponseIpAddr.lookup ip =
      (ni.waitingArpResponseIpAddr.lookup ip).bind fun left => some (restart ms left) :=
    Table.lookup_sweep _ _ ip
  have htable : (ni.ticked ms).arpTable.lookup ip = (ni.arpTable.lookup ip).bind (expire ms) :=
    Table.lookup_sweep _ _ ip
  cases hl : ni.waitingArpResponseIpAddr.lookup ip with
  | none =>
    have hout : ni.asksIn (.tick ms) ip = false := by simp [asksIn, runsOut, hl]
    refine ⟨by simp [hout], by simp [hwait, hl], ?_⟩
    intro _
    refine .inr ⟨hl, ?_⟩
    intro entry hentry
    by_cases httl : entry.ttl ≤ ms
    · exact .inl httl
    · refine .inr ⟨{ entry with ttl := entry.ttl - ms }, ?_, ?_⟩
      · simp [htable, hentry, expire, httl]
      · change entry.ttl ≤ entry.ttl - ms + ms
        omega
  | some before =>
    rw [hl] at hwait
    refine ⟨?_, ?_, ?_⟩
    · intro hasks
      have hle : before ≤ ms := by simpa [asksIn, runsOut, hl] using hasks
      refine ⟨5000 - ms, ?_, Nat.sub_add_cancel (Nat.le_of_lt hms)⟩
      simp [hwait, restart, hle, arpResponseDefaultTtl]
    · intro hasks left hleft
      have hlt : ms < before := by simpa [asksIn, runsOut, hl] using hasks
      rw [hwait] at hleft
      simp only [Option.bind_some, restart, Nat.not_le.2 hlt, ↓reduceIte, Option.some.injEq]
        at hleft
      rw [hl, ← hleft]
      exact congrArg some (Nat.sub_add_cancel (Nat.le_of_lt hlt)).symm
    · intro hnone
      rw [hwait] at hnone
      cases hnone

/-- **Every call** with ticks below 5000 ms. -/
theorem Countdown.call (hop : op.Short) (ip : UInt32) : Countdown ni op (ni.step op) ip := by
  obtain ⟨ni', frames, hni', hframes, hcall⟩ := exists_call (hop.returns ni)
  rw [hni']
  cases hcall with
  | wait hmiss hasked => exact .of_same (asksIn_sendDatagram (.inr hasked) ip) rfl rfl rfl
  | @ask dgram nextHop hmiss hasked =>
    by_cases hip : ip = nextHop.ip
    · subst hip
      have hasks : ni.asksIn (.sendDatagram dgram nextHop) nextHop.ip = true := by
        simp [asksIn, hmiss, AList.lookup_eq_none.2 hasked]
      refine ⟨fun _ => ⟨5000, AList.lookup_insert _, rfl⟩, by simp [hasks], ?_⟩
      intro hnone
      rw [AList.lookup_insert] at hnone
      cases hnone
    · apply Countdown.of_same _ rfl
      · exact AList.lookup_insert_ne hip
      · rfl
      · simp [asksIn, Ne.symm hip]
  | send hentry hser =>
    have hknown := Table.mem_iff_lookup.2 ⟨_, hentry⟩
    exact .of_same (asksIn_sendDatagram (.inl hknown) ip) rfl rfl rfl
  | throw hentry hser =>
    have hknown := Table.mem_iff_lookup.2 ⟨_, hentry⟩
    exact .of_same (asksIn_sendDatagram (.inl hknown) ip) rfl rfl rfl
  | ignore hmsg => exact .of_same rfl rfl rfl rfl
  | learn hmsg => exact .learn ip
  | tick hends => exact .tick hop ip
  | pop => exact .of_same rfl rfl rfl rfl

end NetworkInterface

namespace IfaceRun

variable {r : IfaceRun} {op : IfaceOp}

/-- The ARP requests emitted for an address. -/
def asksFor (r : IfaceRun) (ip : UInt32) : List Emission := r.out.filter fun e => e.frame.asks ip

/-- Any two ARP requests for one address are 5000 ms apart. -/
def Spaced (r : IfaceRun) : Prop :=
  ∀ ip, (r.asksFor ip).Pairwise fun a b => a.time + 5000 ≤ b.time

/-- The length of the tick that restarted the countdown of an address; zero if `send_datagram`
started it. -/
def lostIn (r : IfaceRun) (ip : UInt32) : ℕ := ((r.asksFor ip).getLast?.map Emission.tick).getD 0

/-- A tick that finds the countdown of an address run out is longer than what was left of it by what
it had lost when it was restarted. -/
def MakesUp (r : IfaceRun) : IfaceOp → Prop
  | .tick ms => ∀ ip ∈ r.ni.waitingArpResponseIpAddr.keys, r.ni.runsOut ms ip = true →
    (r.ni.waitingArpResponseIpAddr.lookup ip).getD 0 + r.lostIn ip ≤ ms
  | _ => True

instance (r : IfaceRun) : (op : IfaceOp) → Decidable (MakesUp r op)
  | .sendDatagram _ _ => .isTrue trivial
  | .recvFrame _ => .isTrue trivial
  -- over the keys, not over all addresses
  | .tick ms => List.decidableBAll (fun ip => r.ni.runsOut ms ip = true →
      (r.ni.waitingArpResponseIpAddr.lookup ip).getD 0 + r.lostIn ip ≤ ms)
    r.ni.waitingArpResponseIpAddr.keys
  | .popFrame => .isTrue trivial

theorem asksFor_step (h : r.ni.Returns op) (ip : UInt32) :
    (r.step op).asksFor ip = r.asksFor ip ++
      if r.ni.asksIn op ip = true then
        [⟨r.now + op.ms, op.ms, r.ni.nextHopOf op, r.ni.arpRequestFrame ip⟩]
      else [] := by
  have hcall := NetworkInterface.filter_asks_emitted h ip
  unfold asksFor step emissions
  rw [List.filter_append, List.filter_map]
  congr 1
  change ((r.ni.emitted op).filter fun f => f.asks ip).map _ = _
  rw [hcall]
  split <;> rfl

/-! ## The countdowns and the requests -/

/-- The countdowns and the requests. -/
structure Rated (r : IfaceRun) : Prop where
  past : ∀ ip, ∀ e ∈ r.asksFor ip, e.time ≤ r.now
  /-- A running countdown is what 5000 ms have left since the last request, less what it lost. -/
  running : ∀ ip left, r.ni.waitingArpResponseIpAddr.lookup ip = some left →
    ∃ e, (r.asksFor ip).getLast? = some e ∧ left + e.tick + r.now = e.time + 5000
  /-- An address that is not waited for was asked for 30 s before its table entry expires. -/
  resting : ∀ ip, r.ni.waitingArpResponseIpAddr.lookup ip = none → ∀ e ∈ r.asksFor ip,
    (∃ entry, r.ni.arpTable.lookup ip = some entry ∧ e.time + 30000 ≤ r.now + entry.ttl) ∨
      e.time + 30000 ≤ r.now

theorem Rated.new (ethernetAddress : EthernetAddress) (ipAddress : Address) :
    Rated (.new ethernetAddress ipAddress) := by
  constructor <;> simp [IfaceRun.new, NetworkInterface.new, asksFor]

/-- **Every call** with ticks below 5000 ms keeps the countdowns and the requests in step. -/
theorem Rated.step (h : Rated r) (hop : op.Short) : Rated (r.step op) := by
  have hreturns := hop.returns r.ni
  have hcount : ∀ ip, r.ni.Countdown op (r.step op).ni ip :=
    fun ip => NetworkInterface.Countdown.call hop ip
  have hnow : (r.step op).now = r.now + op.ms := rfl
  have hpast : ∀ ip, ∀ e ∈ (r.step op).asksFor ip, e.time ≤ r.now + op.ms := by
    intro ip e he
    rw [asksFor_step hreturns, List.mem_append] at he
    rcases he with he | he
    · exact Nat.le_trans (h.past ip e he) (Nat.le_add_right _ _)
    · split at he
      · rw [List.mem_singleton.1 he]
      · cases he
  refine ⟨hpast, ?_, ?_⟩
  · intro ip left hleft
    cases hasks : r.ni.asksIn op ip with
    | true =>
      obtain ⟨left', hleft', hsum⟩ := (hcount ip).starts hasks
      rw [hleft] at hleft'
      cases hleft'
      rw [asksFor_step hreturns, if_pos hasks]
      refine ⟨_, List.getLast?_concat, ?_⟩
      change left + op.ms + (r.now + op.ms) = r.now + op.ms + 5000
      omega
    | false =>
      obtain ⟨e, hlast, hsum⟩ := h.running ip _ ((hcount ip).goesOn hasks left hleft)
      refine ⟨e, ?_, by omega⟩
      rw [asksFor_step hreturns]
      simpa [hasks] using hlast
  · intro ip hnone e he
    rcases (hcount ip).ends hnone with ⟨entry, hentry, httl⟩ | ⟨hbefore, hold⟩
    · have := hpast ip e he
      exact .inl ⟨entry, hentry, by omega⟩
    · have hasks : r.ni.asksIn op ip = false := by
        cases hasks : r.ni.asksIn op ip with
        | false => rfl
        | true =>
          obtain ⟨left, hleft, -⟩ := (hcount ip).starts hasks
          rw [hnone] at hleft
          cases hleft
      have he' : e ∈ r.asksFor ip := by
        rw [asksFor_step hreturns] at he
        simpa [hasks] using he
      rcases h.resting ip hbefore e he' with ⟨entry, hentry, hle⟩ | hle
      · rcases hold entry hentry with hms | ⟨entry', hentry', httl⟩
        · exact .inr (by omega)
        · exact .inl ⟨entry', hentry', by omega⟩
      · exact .inr (by omega)

theorem spaced_step (hp : Spaced r) (hop : r.ni.Returns op) :
    Spaced (r.step op) ↔ ∀ ip, r.ni.asksIn op ip = true → ∀ e ∈ r.asksFor ip,
      e.time + 5000 ≤ r.now + op.ms := by
  constructor
  · intro h ip hip e he
    have hpair := h ip
    rw [asksFor_step hop, if_pos hip, List.pairwise_append] at hpair
    exact hpair.2.2 e he _ (List.mem_singleton_self _)
  · intro h ip
    rw [asksFor_step hop]
    split
    · rename_i hip
      rw [List.pairwise_append]
      refine ⟨hp ip, List.pairwise_singleton _ _, ?_⟩
      intro e he e' he'
      rw [List.mem_singleton.1 he']
      exact h ip hip e he
    · rw [List.append_nil]
      exact hp ip

theorem Spaced.le_last (hp : Spaced r) {ip : UInt32} {last e : Emission}
    (hlast : (r.asksFor ip).getLast? = some last) (he : e ∈ r.asksFor ip) :
    e.time ≤ last.time := by
  obtain ⟨before, hbefore⟩ := List.getLast?_eq_some_iff.1 hlast
  have hpair := hp ip
  rw [hbefore, List.pairwise_append] at hpair
  rw [hbefore, List.mem_append] at he
  rcases he with he | he
  · have hle := hpair.2.2 e he last (List.mem_singleton_self _)
    omega
  · rw [List.mem_singleton.1 he]

/-- **One call** keeps the requests apart exactly if it makes up for what the countdowns lost. -/
theorem Rated.spaced_iff (h : Rated r) (hp : Spaced r) (hop : op.Short) :
    Spaced (r.step op) ↔ MakesUp r op := by
  rw [spaced_step hp (hop.returns r.ni)]
  cases op with
  | sendDatagram dgram nextHop =>
    refine iff_of_true ?_ trivial
    intro ip hip e he
    simp only [NetworkInterface.asksIn, Bool.and_eq_true, Option.isNone_iff_eq_none] at hip
    rcases h.resting ip hip.2 e he with ⟨entry, hentry, -⟩ | hold
    · rw [hip.1.2] at hentry
      cases hentry
    · exact Nat.le_trans (by omega) (Nat.le_add_right _ _)
  | recvFrame frame => exact iff_of_true (fun ip hip => by cases hip) trivial
  | tick ms =>
    -- for an address whose countdown runs out, the last request decides
    have hout : ∀ ip, r.ni.runsOut ms ip = true →
        ((∀ e ∈ r.asksFor ip, e.time + 5000 ≤ r.now + ms) ↔
          (r.ni.waitingArpResponseIpAddr.lookup ip).getD 0 + r.lostIn ip ≤ ms) := by
      intro ip hip
      obtain ⟨left, hleft⟩ := Table.mem_iff_lookup.1 (NetworkInterface.mem_keys_of_runsOut hip)
      obtain ⟨last, hlast, hsum⟩ := h.running ip left hleft
      rw [lostIn, hlast, hleft]
      simp only [Option.getD_some, Option.map_some]
      constructor
      · intro hall
        have hle := hall last (List.mem_of_getLast? hlast)
        omega
      · intro hle e he
        have hearlier := hp.le_last hlast he
        omega
    constructor
    · intro hall ip _ hip
      exact (hout ip hip).1 (hall ip hip)
    · intro hall ip hip
      exact (hout ip hip).2 (hall ip (NetworkInterface.mem_keys_of_runsOut hip) hip)
  | popFrame => exact iff_of_true (fun ip hip => by cases hip) trivial

/-! ## Runs -/

theorem asksFor_exec (r : IfaceRun) {ops : List IfaceOp} (hops : ∀ op ∈ ops, op.Short)
    (ip : UInt32) : r.asksFor ip <+: (exec step r ops).asksFor ip := by
  have hgrow : Guarded step (fun _ op => op.Short) r ops := guarded_of_mem hops r
  apply Guarded.invariant (I := fun s => r.asksFor ip <+: s.asksFor ip) _ (List.prefix_refl _) hgrow
  intro s op hs hop
  rw [asksFor_step (hop.returns s.ni)]
  exact hs.trans (List.prefix_append _ _)

/-- **The rate of ARP requests**: in a run with ticks below 5000 ms, any two requests for one
address are 5000 ms apart exactly if every tick that finds a countdown run out makes up for what it
lost to the tick that restarted it. -/
theorem run_spaced_iff (ethernetAddress : EthernetAddress) (ipAddress : Address)
    (ops : List IfaceOp) (hops : ∀ op ∈ ops, op.Short) :
    Spaced (exec step (new ethernetAddress ipAddress) ops) ↔
      Guarded step MakesUp (new ethernetAddress ipAddress) ops := by
  have hstart : Spaced (new ethernetAddress ipAddress) := by
    intro ip
    exact List.Pairwise.nil
  have hiff := always_iff_guarded (fun r op h _ hop _ => Rated.step h hop)
    (fun r op h hp hop => Rated.spaced_iff h hp hop) (Rated.new ethernetAddress ipAddress) hstart
    (guarded_of_mem hops (new ethernetAddress ipAddress))
  rw [← hiff]
  constructor
  · -- the requests up to any state are among those of the whole run
    intro hall n ip
    have hdrop : ∀ op ∈ ops.drop n, op.Short := fun op hop => hops op (List.mem_of_mem_drop hop)
    have hprefix :=
      asksFor_exec (exec step (new ethernetAddress ipAddress) (ops.take n)) hdrop ip
    rw [← exec_append, List.take_append_drop] at hprefix
    exact (hall ip).sublist hprefix.sublist
  · intro hall
    simpa using hall ops.length

/-- A datagram to an unknown address, and ticks: the countdown runs out in the second, which
restarts it with 5000 ms and takes its own 4000 ms from that. -/
def retried : List IfaceOp := [.sendDatagram {} ⟨2, 0⟩, .tick 4000, .tick 4000]

theorem spaced_retried :
    (∀ op ∈ retried ++ [.tick 999, .tick 4500], op.Short) ∧
    Guarded step MakesUp (new (.replicate 6 1) ⟨1, 0⟩)
      (retried ++ [.tick 999, .tick 4500]) ∧
    Spaced (exec step (new (.replicate 6 1) ⟨1, 0⟩) (retried ++ [.tick 999, .tick 4500])) :=
  ⟨by decide, by decide +kernel, (run_spaced_iff _ _ _ (by decide)).2 (by decide +kernel)⟩

/-- **One second after the last request**, the address is asked for again. -/
theorem retried_too_soon :
    ¬ ((exec step (new (.replicate 6 1) ⟨1, 0⟩) (retried ++ [.tick 1000])).asksFor 2).Pairwise
      fun a b => a.time + 5000 ≤ b.time := by
  decide +kernel

end IfaceRun

end Sponge
