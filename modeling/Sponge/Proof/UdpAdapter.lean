import Sponge.FdAdapter
import Sponge.Proof.SocketRules
import Sponge.Proof.TCPCodec

/-!
# The adapters over UDP

`TCPOverUDPSocketAdapter.contract`: the adapter of `fd_adapter.cc` keeps the contract of a datagram
adapter, if only the peer's segments come from the peer, and nobody else's SYN while it listens.
`LossyFdAdapter.contract`: an adapter that loses datagrams keeps the contract of the one below it.
-/

namespace Sponge

open TCPSpongeSocket

/-- Whatever the bytes are parsed as is like one of the segments. -/
def Encodes (segs : List TCPSegment) (bytes : List UInt8) : Prop :=
  ∀ seg, TCPSegment.parse {} (Buffer.ofString bytes) 0 = (seg, .noError) → seg.Among segs

theorem Encodes.mono {segs segs' : List TCPSegment} {bytes : List UInt8} (h : Encodes segs bytes)
    (hsub : ∀ seg ∈ segs, seg ∈ segs') : Encodes segs' bytes :=
  fun seg hparse => (h seg hparse).mono hsub

/-- A plain segment with any ports can be serialized, and is parsed as one like it. -/
theorem TCPSegment.Plain.exists_serialize {seg : TCPSegment} (h : seg.Plain) (sport dport : UInt16)
    {c : UInt32} (hc : c.toNat ≤ 5 * 65535 + 255) :
    ∃ s cksum, TCPSegment.serialize
        { seg with header := { seg.header with sport := sport, dport := dport } } c = .ok s ∧
      s.size = 20 + seg.payload.length ∧
      TCPSegment.parse {} (Buffer.ofString s.concatenate) c =
        ({ seg with header := { seg.header with
            sport := sport, dport := dport, cksum := cksum } }, .noError) := by
  obtain ⟨hdoff, hlen⟩ := h
  have hdoff : seg.header.doff.toNat = 5 := by
    rw [hdoff]
    rfl
  have hlen : seg.payload.length ≤ 1000 := hlen
  generalize hout : ({ seg with
    header := { seg.header with sport := sport, dport := dport } } : TCPSegment) = out
  have hdoff' : out.header.doff.toNat = 5 := by rw [← hout]; exact hdoff
  have hpayload : out.payload = seg.payload := by rw [← hout]
  have h5 : 5 ≤ out.header.doff.toNat := by omega
  have h15 : out.header.doff.toNat ≤ 15 := by omega
  have hfits : 4 * out.header.doff.toNat + out.payload.length ≤ 65535 := by
    rw [hpayload]
    omega
  obtain ⟨s, hs, hsize, -, hparse⟩ := TCPSegment.exists_parse_serialize h5 h15 hfits hc {}
  refine ⟨s, out.newCksum c, hs, by rw [hsize, hdoff', hpayload], ?_⟩
  rw [hparse, ← hout]
  rfl

namespace TCPOverUDPSocketAdapter

variable {peer : Address} {listens : Bool} {segs L : List TCPSegment} {sys : Exn → Prop}
  {a : TCPOverUDPSocketAdapter} {answer : UDPAnswer} {seg : TCPSegment}

/-- The bytes are a SYN that opens a connection. -/
def Opens (bytes : List UInt8) : Prop :=
  ∃ seg, TCPSegment.parse {} (Buffer.ofString bytes) 0 = (seg, .noError) ∧
    seg.header.syn = true ∧ seg.header.rst = false

/-- The invariant of the adapter: what it sent are the segments `L`, and its peer is `peer` unless
it still listens. -/
structure Keeps (peer : Address) (listens : Bool) (L : List TCPSegment)
    (a : TCPOverUDPSocketAdapter) : Prop where
  sent : ∀ d ∈ a.sock.sent, Encodes L d.payload
  peer : a.listen = false → a.cfg.destination = peer
  listens : a.listen = true → listens = true

/-- What the kernel answers: from the peer come the segments `segs`, and nobody else opens a
connection. -/
structure Arrives (peer : Address) (listens : Bool) (segs : List TCPSegment) (sys : Exn → Prop)
    (answer : UDPAnswer) : Prop where
  fromPeer : ∀ datagram, answer.recv = .ok datagram → datagram.sourceAddress = peer →
    Encodes segs datagram.payload
  opens : ∀ datagram, answer.recv = .ok datagram → listens = true → Opens datagram.payload →
    datagram.sourceAddress = peer
  errors : ∀ e, answer.recv = .error e ∨ answer.sendmsg = .error e → sys e

/-- What the calls of `UDPSocket` throw by themselves. -/
def Oversize (e : Exn) : Prop :=
  e = .runtimeError "recvfrom (oversized datagram)" ∨
    e = .runtimeError "datagram payload too big for sendmsg()"

/-- `recv` returns the datagram, or throws. -/
theorem recv_cases (s : UDPSocket) (answer : Except Exn UDPSocket.ReceivedDatagram) :
    (∃ e, (answer = .error e ∨ e = .runtimeError "recvfrom (oversized datagram)") ∧
      s.recv answer = (s, .error e)) ∨
    ∃ datagram, answer = .ok datagram ∧
      s.recv answer = ({ s with fd := s.fd.registerRead }, .ok datagram) := by
  unfold UDPSocket.recv
  cases answer with
  | error e => exact .inl ⟨e, .inl rfl, rfl⟩
  | ok datagram =>
    dsimp only
    split
    · exact .inl ⟨_, .inr rfl, rfl⟩
    · exact .inr ⟨datagram, rfl, rfl⟩

/-- `sendto` sends the payload, or throws. -/
theorem sendto_cases (s : UDPSocket) (destination : Address) (payload : BufferList)
    (answer : Except Exn ℕ) :
    (∃ e, (answer = .error e ∨ e = .runtimeError "datagram payload too big for sendmsg()") ∧
      s.sendto destination payload answer = (s, .error e)) ∨
    s.sendto destination payload answer = ({ s with
      fd := s.fd.registerWrite
      sent := s.sent ++ [⟨s.address, destination, payload.concatenate⟩] }, .ok ()) := by
  unfold UDPSocket.sendto
  cases answer with
  | error e => exact .inl ⟨e, .inl rfl, rfl⟩
  | ok n =>
    dsimp only
    split
    · exact .inl ⟨_, .inr rfl, rfl⟩
    · exact .inr rfl

/-- What `read` does. -/
inductive Reads (a : TCPOverUDPSocketAdapter) (answer : UDPAnswer) :
    TCPOverUDPSocketAdapter × Except Exn (Option TCPSegment) → Prop
  | threw {e : Exn}
      (he : answer.recv = .error e ∨ e = .runtimeError "recvfrom (oversized datagram)") :
      Reads a answer (a, .error e)
  | dropped : Reads a answer ({ a with sock.fd := a.sock.fd.registerRead }, .ok none)
  | segment {datagram : UDPSocket.ReceivedDatagram} {seg : TCPSegment}
      (hrecv : answer.recv = .ok datagram) (hlisten : a.listen = false)
      (hsource : datagram.sourceAddress = a.cfg.destination)
      (hparse : TCPSegment.parse {} (Buffer.ofString datagram.payload) 0 = (seg, .noError)) :
      Reads a answer ({ a with sock.fd := a.sock.fd.registerRead }, .ok (some seg))
  | opened {datagram : UDPSocket.ReceivedDatagram} {seg : TCPSegment}
      (hrecv : answer.recv = .ok datagram) (hlisten : a.listen = true)
      (hparse : TCPSegment.parse {} (Buffer.ofString datagram.payload) 0 = (seg, .noError))
      (hsyn : seg.header.syn = true) (hrst : seg.header.rst = false) :
      Reads a answer ({ a with
        sock.fd := a.sock.fd.registerRead
        cfg.destination := datagram.sourceAddress
        listen := false }, .ok (some seg))

theorem reads (a : TCPOverUDPSocketAdapter) (answer : UDPAnswer) :
    Reads a answer (a.read answer) := by
  unfold read
  rcases recv_cases a.sock answer.recv with ⟨e, he, hrecv⟩ | ⟨datagram, hanswer, hrecv⟩
  · rw [hrecv]
    exact .threw he
  · rw [hrecv]
    dsimp only
    split
    · exact .dropped
    · rename_i hours
      generalize hparse : TCPSegment.parse {} (Buffer.ofString datagram.payload) 0 = parsed
      obtain ⟨seg, result⟩ := parsed
      dsimp only
      split
      · exact .dropped
      · rename_i hresult
        obtain rfl : result = .noError := not_not.1 hresult
        split
        · rename_i hlisten
          split
          · rename_i hsyn
            exact .opened hanswer hlisten hparse hsyn.1 hsyn.2
          · exact .dropped
        · rename_i hlisten
          have hlisten : a.listen = false := Bool.eq_false_iff.2 hlisten
          refine .segment hanswer hlisten ?_ hparse
          by_contra hsource
          exact hours ⟨hlisten, hsource⟩

/-- What is written is like the segment. -/
theorem encodes_write (h : seg.Plain) (hmem : seg ∈ L) (a : TCPOverUDPSocketAdapter) :
    ∃ s, (a.setPorts seg).serialize 0 = .ok s ∧ Encodes L s.concatenate := by
  obtain ⟨s, cksum, hs, -, hparse⟩ := h.exists_serialize (c := 0) a.cfg.source.port
    a.cfg.destination.port (by decide)
  refine ⟨s, hs, fun seg' hseg' => ⟨seg, hmem, ?_⟩⟩
  rw [hparse] at hseg'
  cases hseg'
  rfl

/-- **The adapter keeps its contract.** -/
theorem contract (peer : Address) (listens : Bool) (segs : List TCPSegment)
    (hsys : ∀ e, Oversize e → sys e) : AdapterContract (Keeps peer listens)
      (Arrives peer listens segs sys) (TCPSegment.Among segs) sys where
  mono h hsub := ⟨fun d hd => (h.sent d hd).mono hsub, h.peer, h.listens⟩
  read {L a i} h hB := by
    show Keeps peer listens L (a.read i).1 ∧ Uses a.sock.fd (a.read i).1.sock.fd
    have hreads := a.reads i
    generalize a.read i = r at hreads
    cases hreads with
    | threw => exact ⟨h, .refl _⟩
    | dropped | segment => exact ⟨⟨h.sent, h.peer, h.listens⟩, ⟨rfl, id⟩⟩
    | opened hrecv hlisten hparse hsyn hrst =>
      refine ⟨⟨h.sent, fun _ => ?_, nofun⟩, ⟨rfl, id⟩⟩
      exact hB.opens _ hrecv (h.listens hlisten) ⟨_, hparse, hsyn, hrst⟩
  returns {L a i seg} h hB hseg := by
    have hseg : (a.read i).2 = .ok (some seg) := hseg
    have hreads := a.reads i
    generalize a.read i = r at hreads hseg
    cases hreads with
    | threw | dropped => cases hseg
    | segment hrecv hlisten hsource hparse =>
      cases hseg
      exact hB.fromPeer _ hrecv (hsource.trans (h.peer hlisten)) _ hparse
    | opened hrecv hlisten hparse hsyn hrst =>
      cases hseg
      refine hB.fromPeer _ hrecv ?_ _ hparse
      exact hB.opens _ hrecv (h.listens hlisten) ⟨_, hparse, hsyn, hrst⟩
  counts {L a i seg} h hB hok := by
    have hok : (a.read i).2 = .ok seg := hok
    show a.sock.fd.readCount ≠ (a.read i).1.sock.fd.readCount
    have hreads := a.reads i
    generalize a.read i = r at hreads hok
    cases hreads with
    | threw => cases hok
    | dropped | segment | opened => simp [FileDescriptor.registerRead]
  readThrows {L a i e} h hB he := by
    have he : (a.read i).2 = .error e := he
    have hreads := a.reads i
    generalize a.read i = r at hreads he
    cases hreads with
    | threw hwhy =>
      cases he
      rcases hwhy with hwhy | rfl
      · exact hB.errors _ (.inl hwhy)
      · exact hsys _ (.inl rfl)
    | dropped | segment | opened => cases he
  write {L a seg i} h hmem hplain hB := by
    show Keeps peer listens L (a.write seg i).1 ∧ Uses a.sock.fd (a.write seg i).1.sock.fd
    obtain ⟨s, hs, hencodes⟩ := encodes_write hplain hmem a
    unfold write
    rw [hs]
    dsimp only
    rcases sendto_cases a.sock a.cfg.destination s i.sendmsg with ⟨e, -, hsend⟩ | hsend
    · rw [hsend]
      exact ⟨⟨h.sent, h.peer, h.listens⟩, .refl _⟩
    · rw [hsend]
      refine ⟨⟨fun d hd => ?_, h.peer, h.listens⟩, ⟨rfl, id⟩⟩
      rcases List.mem_append.1 hd with hd | hd
      · exact h.sent d hd
      · rw [List.mem_singleton.1 hd]
        exact hencodes
  writeThrows {L a seg i e} h hmem hplain hB he := by
    have he : (a.write seg i).2 = .error e := he
    obtain ⟨s, hs, -⟩ := encodes_write hplain hmem a
    unfold write at he
    rw [hs] at he
    dsimp only at he
    rcases sendto_cases a.sock a.cfg.destination s i.sendmsg with ⟨e', hwhy, hsend⟩ | hsend
    · rw [hsend] at he
      cases he
      rcases hwhy with hwhy | rfl
      · exact hB.errors _ (.inr hwhy)
      · exact hsys _ (.inr rfl)
    · rw [hsend] at he
      cases he
  tick {L a a' ms i r} h hB ht := by
    cases ht
    exact ⟨h, .refl _, nofun⟩

end TCPOverUDPSocketAdapter

namespace LossyFdAdapter

variable {α ι κ : Type} [DatagramAdapter α ι κ] {J : List TCPSegment → α → Prop} {B : ι → Prop}
  {Q : TCPSegment → Prop} {sys : Exn → Prop}

/-- What `read` does. -/
theorem read_cases (a : LossyFdAdapter α) (answer : ι × UInt16) :
    ∃ result, a.read answer =
        ({ a with adapter := (DatagramAdapter.read a.adapter answer.1).1 }, result) ∧
      ((DatagramAdapter.read a.adapter answer.1).2 = result ∨
        result = .ok none ∧ ∃ seg, (DatagramAdapter.read a.adapter answer.1).2 = .ok seg) := by
  unfold read
  generalize DatagramAdapter.read a.adapter answer.1 = r
  obtain ⟨adapter, r⟩ := r
  cases r with
  | error e => exact ⟨_, rfl, .inl rfl⟩
  | ok seg =>
    dsimp only
    split
    · exact ⟨_, rfl, .inr ⟨rfl, seg, rfl⟩⟩
    · exact ⟨_, rfl, .inl rfl⟩

/-- What `write` does. -/
theorem write_cases (a : LossyFdAdapter α) (seg : TCPSegment) (answer : ι × UInt16) :
    a.write seg answer = (a, .ok ()) ∨
      a.write seg answer = ({ a with adapter := (DatagramAdapter.write a.adapter seg answer.1).1 },
        (DatagramAdapter.write a.adapter seg answer.1).2) := by
  unfold write
  split
  · exact .inl rfl
  · exact .inr rfl

/-- **Losing datagrams** is within the contract. -/
theorem contract (hc : AdapterContract J B Q sys) :
    AdapterContract (fun L (a : LossyFdAdapter α) => J L a.adapter)
      (fun answer : ι × UInt16 => B answer.1) Q sys where
  mono h hsub := hc.mono h hsub
  read {L a i} h hB := by
    obtain ⟨result, hread, -⟩ := a.read_cases i
    show J L (a.read i).1.adapter ∧ Uses (DatagramAdapter.fd a.adapter)
      (DatagramAdapter.fd (a.read i).1.adapter)
    rw [hread]
    exact hc.read h hB
  returns {L a i seg} h hB hseg := by
    obtain ⟨result, hread, hresult⟩ := a.read_cases i
    have hseg : (a.read i).2 = .ok (some seg) := hseg
    rw [hread] at hseg
    subst hseg
    rcases hresult with hresult | ⟨hnone, -⟩
    · exact hc.returns h hB hresult
    · cases hnone
  counts {L a i seg} h hB hok := by
    obtain ⟨result, hread, hresult⟩ := a.read_cases i
    have hok : (a.read i).2 = .ok seg := hok
    show (DatagramAdapter.fd a.adapter).readCount ≠
      (DatagramAdapter.fd (a.read i).1.adapter).readCount
    rw [hread] at hok ⊢
    subst hok
    rcases hresult with hresult | ⟨-, seg, hresult⟩
    · exact hc.counts h hB hresult
    · exact hc.counts h hB hresult
  readThrows {L a i e} h hB he := by
    obtain ⟨result, hread, hresult⟩ := a.read_cases i
    have he : (a.read i).2 = .error e := he
    rw [hread] at he
    subst he
    rcases hresult with hresult | ⟨hnone, -⟩
    · exact hc.readThrows h hB hresult
    · cases hnone
  write {L a seg i} h hmem hplain hB := by
    show J L (a.write seg i).1.adapter ∧ Uses (DatagramAdapter.fd a.adapter)
      (DatagramAdapter.fd (a.write seg i).1.adapter)
    rcases a.write_cases seg i with hwrite | hwrite
    · rw [hwrite]
      exact ⟨h, .refl _⟩
    · rw [hwrite]
      exact hc.write h hmem hplain hB
  writeThrows {L a seg i e} h hmem hplain hB he := by
    have he : (a.write seg i).2 = .error e := he
    rcases a.write_cases seg i with hwrite | hwrite
    · rw [hwrite] at he
      cases he
    · rw [hwrite] at he
      exact hc.writeThrows h hmem hplain hB he
  tick {L a a' ms i r} h hB ht := by
    obtain ⟨⟨adapter, result⟩, htick, heq⟩ := Option.map_eq_some_iff.1 ht
    cases heq
    exact hc.tick h hB htick

end LossyFdAdapter

end Sponge
