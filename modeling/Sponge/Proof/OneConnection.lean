import Sponge.Lib.Run
import Sponge.Proof.Encapsulation

/-!
# One connection per adapter

`AdapterRun` is an adapter with the datagrams it took a segment from. Once it is connected, it stays
as it is and takes segments of one 4-tuple only, the mirror image of what it writes itself, so that
all other datagrams could be left out: `run_one_connection`.
-/

namespace Sponge

open BigEndian Run

/-- The addresses and ports of a segment on its way. -/
structure FourTuple where
  srcIp : UInt32
  srcPort : UInt16
  dstIp : UInt32
  dstPort : UInt16
deriving DecidableEq, Repr

/-- The 4-tuple of the way back. -/
def FourTuple.mirror (t : FourTuple) : FourTuple := ⟨t.dstIp, t.dstPort, t.srcIp, t.srcPort⟩

/-- The 4-tuple written in a datagram: the ports are the first four bytes of its payload. -/
def IPv4Datagram.fourTuple (d : InternetDatagram) : Option FourTuple :=
  let payload := d.payload.concatenate
  if 4 ≤ payload.length then
    some ⟨d.header.src, UInt16.ofNat (field payload 0 2), d.header.dst,
      UInt16.ofNat (field payload 2 2)⟩
  else none

/-- The 4-tuple of a segment that arrived in a datagram. -/
def TCPSegment.fourTuple (seg : TCPSegment) (d : InternetDatagram) : FourTuple :=
  ⟨d.header.src, seg.header.sport, d.header.dst, seg.header.dport⟩

namespace TCPOverIPv4Adapter

variable {a : TCPOverIPv4Adapter} {d : InternetDatagram} {seg : TCPSegment}

/-- The 4-tuple of what the adapter takes once it is connected. -/
def fourTuple (a : TCPOverIPv4Adapter) : FourTuple :=
  ⟨a.config.destination.ip, a.config.destination.port, a.config.source.ip, a.config.source.port⟩

/-- **An accepted segment** has the 4-tuple written in its datagram. -/
theorem Accepts.fourTuple (h : Accepts a d seg) : d.fourTuple = some (seg.fourTuple d) := by
  obtain ⟨buffer, hbuffer, hparse⟩ := h.parsed
  rw [TCPSegment.parse_congr, BufferList.str_toBuffer hbuffer] at hparse
  have hnoError := congrArg Prod.snd hparse
  obtain ⟨hlen, hheader⟩ := TCPSegment.header_of_noError hnoError
  have hseg : seg.header = TCPHeader.ofBits d.payload.concatenate := by rw [← hheader, hparse]
  have hlen : 4 ≤ d.payload.concatenate.length := by omega
  simp [IPv4Datagram.fourTuple, TCPSegment.fourTuple, hseg, TCPHeader.ofBits, hlen]

/-- It is then the 4-tuple of the adapter. -/
theorem Accepts.fourTuple_connected (h : Accepts a d seg) :
    (a.connected d seg).fourTuple = seg.fourTuple d := by
  have hdport := h.dport
  cases hlisten : a.listening with
  | false =>
    obtain ⟨hdst, hsrc, hsport⟩ := h.peer hlisten
    rw [connected_of_not_listening hlisten]
    simp [TCPOverIPv4Adapter.fourTuple, TCPSegment.fourTuple, hdst, hsrc, hsport, hdport]
  | true =>
    simp [connected, hlisten, TCPOverIPv4Adapter.fourTuple, TCPSegment.fourTuple, hdport, config]

/-- **What the adapter writes** has the mirror image of its 4-tuple. -/
theorem fourTuple_wrap {dgram : InternetDatagram} (h : (a.wrapTcpInIp seg).2 = .ok dgram) :
    dgram.fourTuple = some a.fourTuple.mirror := by
  unfold wrapTcpInIp at h
  dsimp only at h
  cases hserialize : (a.setPorts seg).serialize (a.ipHeader (a.setPorts seg)).pseudoCksum with
  | error e =>
    rw [hserialize] at h
    cases h
  | ok payload =>
    have hbytes := TCPSegment.concatenate_of_serialize hserialize
    rw [hserialize] at h
    cases h
    -- the ports are in front
    have hports : payload.concatenate = toBytes 2 a.config.source.port.toNat ++
        (toBytes 2 a.config.destination.port.toNat ++ payload.concatenate.drop 4) := by
      rw [hbytes]
      rfl
    have hlen : 4 ≤ payload.concatenate.length := by
      rw [hports]
      simp only [List.length_append, length_toBytes]
      omega
    unfold IPv4Datagram.fourTuple
    dsimp only
    rw [if_pos hlen, hports]
    simp (disch := decide) only [field_skip, field_u16, Nat.reduceSub, UInt16.ofNat_toNat]
    rfl

end TCPOverIPv4Adapter

/-! ## Runs -/

/-- An adapter, and the datagrams it took a segment from. -/
structure AdapterRun where
  adapter : TCPOverIPv4Adapter
  returned : List (InternetDatagram × TCPSegment)

namespace AdapterRun

open TCPOverIPv4Adapter

def new (a : TCPOverIPv4Adapter) : AdapterRun := ⟨a, []⟩

/-- One call of `unwrap_tcp_in_ip`. -/
def step (r : AdapterRun) (d : InternetDatagram) : AdapterRun :=
  match r.adapter.unwrapTcpInIp d with
  | (a, .ok (some seg)) => ⟨a, r.returned ++ [(d, seg)]⟩
  | (a, _) => { r with adapter := a }

variable {r : AdapterRun} {d : InternetDatagram}

/-- What a call can do. -/
theorem step_cases (r : AdapterRun) (d : InternetDatagram) :
    (∃ seg, Accepts r.adapter d seg ∧
      r.step d = ⟨r.adapter.connected d seg, r.returned ++ [(d, seg)]⟩) ∨ r.step d = r := by
  obtain ⟨seg, haccepts, hunwrap⟩ | ⟨result, hunwrap, hnone⟩ := r.adapter.unwrap_cases d
  · exact .inl ⟨seg, haccepts, by simp [step, hunwrap]⟩
  · right
    unfold step
    rw [hunwrap]
    split
    · rename_i seg heq
      cases heq
      exact absurd rfl (hnone seg)
    · rename_i heq
      cases heq
      rfl

/-- A connected adapter stays as it is. -/
theorem adapter_step (h : r.adapter.listening = false) (d : InternetDatagram) :
    (r.step d).adapter = r.adapter := by
  obtain ⟨seg, -, hstep⟩ | hstep := r.step_cases d
  · rw [hstep]
    exact connected_of_not_listening h
  · rw [hstep]

/-- A connected adapter does nothing with a datagram of another 4-tuple. -/
theorem step_of_ne (h : r.adapter.listening = false)
    (hd : d.fourTuple ≠ some r.adapter.fourTuple) : r.step d = r := by
  obtain ⟨seg, haccepts, -⟩ | hstep := r.step_cases d
  · have hconn := haccepts.fourTuple_connected
    rw [connected_of_not_listening h] at hconn
    rw [haccepts.fourTuple, ← hconn] at hd
    exact absurd rfl hd
  · exact hstep

/-- What holds of every run: from the first segment on, the adapter is connected to its sender, and
everything it took has its 4-tuple. -/
structure Inv (r : AdapterRun) : Prop where
  connected : r.returned ≠ [] → r.adapter.listening = false
  tuples : ∀ p ∈ r.returned, p.1.fourTuple = some r.adapter.fourTuple ∧
    p.2.fourTuple p.1 = r.adapter.fourTuple

theorem new_inv (a : TCPOverIPv4Adapter) : Inv (new a) := ⟨by simp [new], by simp [new]⟩

/-- **Step.** -/
theorem Inv.step (h : Inv r) (d : InternetDatagram) : Inv (r.step d) := by
  obtain ⟨seg, haccepts, hstep⟩ | hstep := r.step_cases d
  · have hconn := haccepts.fourTuple_connected
    rw [hstep]
    refine ⟨fun _ => listening_connected _ _ _, ?_⟩
    intro p hp
    rcases List.mem_append.1 hp with hp | hp
    · -- something was taken before, so that the adapter was connected already
      have hlisten := h.connected (List.ne_nil_of_mem hp)
      dsimp only
      rw [connected_of_not_listening hlisten]
      exact h.tuples p hp
    · obtain rfl : p = (d, seg) := by simpa using hp
      dsimp only
      rw [hconn]
      exact ⟨haccepts.fourTuple, rfl⟩
  · rw [hstep]
    exact h

theorem run_inv (a : TCPOverIPv4Adapter) (ds : List InternetDatagram) :
    Inv (exec step (new a) ds) :=
  exec_invariant (fun _ d h => h.step d) ds (new_inv a)

/-- From a connected adapter on, the configuration does not change. -/
theorem adapter_exec (h : r.adapter.listening = false) (ds : List InternetDatagram) :
    (exec step r ds).adapter = r.adapter := by
  have hstep : ∀ (r' : AdapterRun) (d : InternetDatagram), r'.adapter = r.adapter →
      (r'.step d).adapter = r.adapter := by
    intro r' d hr'
    rw [adapter_step (by rw [hr', h]) d, hr']
  exact exec_invariant (I := fun r' : AdapterRun => r'.adapter = r.adapter) hstep ds rfl

/-- **One connection per adapter.** A datagram nothing is returned for leaves the adapter as it is.
All returned segments have one 4-tuple, every datagram wrapped after the first of them has its
mirror image, and datagrams of other 4-tuples can be deleted from then on. -/
theorem run_one_connection (a : TCPOverIPv4Adapter) (ds : List InternetDatagram) :
    (∀ (b : TCPOverIPv4Adapter) (d : InternetDatagram),
      (∀ seg, (b.unwrapTcpInIp d).2 ≠ .ok (some seg)) → (b.unwrapTcpInIp d).1 = b) ∧
    ∃ t : FourTuple,
      (∀ p ∈ (exec step (new a) ds).returned, p.1.fourTuple = some t ∧ p.2.fourTuple p.1 = t) ∧
      (∀ (n : ℕ) (seg : TCPSegment) (dgram : InternetDatagram),
        (exec step (new a) (ds.take n)).returned ≠ [] →
        ((exec step (new a) (ds.take n)).adapter.wrapTcpInIp seg).2 = .ok dgram →
        dgram.fourTuple = some t.mirror) ∧
      ∀ (before after : List InternetDatagram) (keep : InternetDatagram → Bool),
        ds = before ++ after → (exec step (new a) before).returned ≠ [] →
        (∀ d : InternetDatagram, d.fourTuple = some t → keep d = true) →
        (exec step (new a) (before ++ after.filter keep)).returned =
          (exec step (new a) ds).returned := by
  have hfixed : ∀ before after, ds = before ++ after → (exec step (new a) before).returned ≠ [] →
      (exec step (new a) before).adapter.listening = false ∧
        (exec step (new a) ds).adapter = (exec step (new a) before).adapter := by
    intro before after hds hreturned
    have hlisten := (run_inv a before).connected hreturned
    rw [hds, exec_append]
    exact ⟨hlisten, adapter_exec hlisten after⟩
  refine ⟨?_, (exec step (new a) ds).adapter.fourTuple, (run_inv a ds).tuples, ?_, ?_⟩
  · intro b d hnone
    obtain ⟨seg, -, hunwrap⟩ | ⟨result, hunwrap, -⟩ := b.unwrap_cases d
    · exact absurd (by rw [hunwrap]) (hnone seg)
    · rw [hunwrap]
  · intro n seg dgram hreturned hwrap
    obtain ⟨-, hadapter⟩ := hfixed (ds.take n) (ds.drop n) (List.take_append_drop n ds).symm
      hreturned
    rw [hadapter]
    exact fourTuple_wrap hwrap
  · intro before after keep hds hreturned hkeep
    obtain ⟨hlisten, hadapter⟩ := hfixed before after hds hreturned
    rw [hadapter] at hkeep
    rw [hds, exec_append, exec_append]
    congr 1
    apply exec_filter (I := fun r : AdapterRun => r.adapter = (exec step (new a) before).adapter)
    · intro r d hr
      rw [adapter_step (by rw [hr, hlisten]) d, hr]
    · intro r d hr hskip
      apply step_of_ne (by rw [hr, hlisten])
      intro hd
      rw [hr] at hd
      rw [hkeep d hd] at hskip
      cases hskip
    · rfl

/-- A SYN from port 10 to port 20. -/
def openingSyn : InternetDatagram :=
  ⟨{ len := 40, src := 1, dst := 2 }, BufferList.ofString
    [0, 10, 0, 20, 0, 0, 0, 0, 0, 0, 0, 0, 80, 2, 0, 0, 175, 194, 0, 0]⟩

/-- It opens an adapter that listens on port 20; an empty datagram that follows can be deleted. -/
theorem run_one_connection_of_syn :
    (exec step (new ⟨⟨⟨0, 20⟩, ⟨0, 0⟩⟩, true⟩) [openingSyn]).returned ≠ [] ∧
    (exec step (new ⟨⟨⟨0, 20⟩, ⟨0, 0⟩⟩, true⟩) ([openingSyn] ++
      [{}, openingSyn].filter (fun d => d.fourTuple = openingSyn.fourTuple))).returned =
      (exec step (new ⟨⟨⟨0, 20⟩, ⟨0, 0⟩⟩, true⟩) [openingSyn, {}, openingSyn]).returned := by
  have hreturned : (exec step (new ⟨⟨⟨0, 20⟩, ⟨0, 0⟩⟩, true⟩) [openingSyn]).returned ≠ [] := by
    intro h
    exact absurd (congrArg List.length h) (by decide +kernel)
  obtain ⟨-, t, htuples, -, hdelete⟩ :=
    run_one_connection ⟨⟨⟨0, 20⟩, ⟨0, 0⟩⟩, true⟩ [openingSyn, {}, openingSyn]
  have hsyn : ∃ p ∈ (exec step (new ⟨⟨⟨0, 20⟩, ⟨0, 0⟩⟩, true⟩)
      [openingSyn, {}, openingSyn]).returned, p.1.fourTuple = openingSyn.fourTuple := by
    decide +kernel
  obtain ⟨p, hp, hpsyn⟩ := hsyn
  refine ⟨hreturned, hdelete [openingSyn] _ _ rfl hreturned ?_⟩
  intro d hd
  exact decide_eq_true (by rw [hd, ← hpsyn, (htuples p hp).1])

end AdapterRun

end Sponge
