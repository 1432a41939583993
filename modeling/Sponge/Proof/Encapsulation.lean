import Sponge.Proof.TCPCodec
import Sponge.TCPOverIPv4Adapter

/-!
# Encapsulation: segment, datagram and back

`unwrap_cases` is the specification of `unwrap_tcp_in_ip`: a datagram is either accepted
(`Accepts`), and the adapter is `connected` to its sender, or nothing is returned and nothing
changes.

`wrap_unwrap`: what an adapter wraps, serialized and parsed as a datagram, an adapter with the
mirrored configuration unwraps, and so does a listening one if it is a SYN; all of it but the
checksum arrives.
-/

namespace Sponge

namespace TCPOverIPv4Adapter

variable {a b : TCPOverIPv4Adapter} {d : InternetDatagram} {seg : TCPSegment}

/-! ## Unwrapping -/

/-- The datagram carries the segment, and the adapter takes it. -/
structure Accepts (a : TCPOverIPv4Adapter) (d : InternetDatagram) (seg : TCPSegment) : Prop where
  parsed : ∃ buffer, d.payload.toBuffer = .ok buffer ∧
    TCPSegment.parse {} buffer d.header.pseudoCksum = (seg, .noError)
  proto : d.header.proto = IPv4Header.protoTCP
  dport : seg.header.dport = a.config.source.port
  peer : a.listening = false → d.header.dst = a.config.source.ip ∧
    d.header.src = a.config.destination.ip ∧ seg.header.sport = a.config.destination.port
  opens : a.listening = true → seg.header.syn = true ∧ seg.header.rst = false

/-- The adapter after it has accepted the segment. -/
def connected (a : TCPOverIPv4Adapter) (d : InternetDatagram) (seg : TCPSegment) :
    TCPOverIPv4Adapter :=
  if a.listening = true then
    { cfg :=
        { source := { ip := d.header.dst, port := a.config.source.port }
          destination := { ip := d.header.src, port := seg.header.sport } }
      listen := false }
  else a

theorem listening_connected (a : TCPOverIPv4Adapter) (d : InternetDatagram) (seg : TCPSegment) :
    (a.connected d seg).listening = false := by
  unfold connected
  split
  · rfl
  · rename_i hlisten
    simpa using hlisten

theorem connected_of_not_listening (h : a.listening = false) : a.connected d seg = a := by
  simp [connected, h]

theorem unwrap_accepted (h : Accepts a d seg) :
    a.unwrapTcpInIp d = (a.connected d seg, .ok (some seg)) := by
  obtain ⟨⟨buffer, hbuffer, hparse⟩, hproto, hdport, hpeer, hopens⟩ := h
  unfold unwrapTcpInIp connected
  simp only [hbuffer]
  generalize TCPSegment.parse {} buffer d.header.pseudoCksum = result at hparse ⊢
  subst hparse
  cases hlisten : a.listening with
  | false =>
    obtain ⟨hdst, hsrc, hsport⟩ := hpeer hlisten
    simp [hdst, hsrc, hsport, hproto, hdport, fromPeer, Address.ipv4Numeric]
  | true =>
    obtain ⟨hsyn, hrst⟩ := hopens hlisten
    simp [hproto, hdport, hsyn, hrst, fromPeer, config]

/-- What the last check returns was sent from the peer's port. -/
theorem fromPeer_cases (a : TCPOverIPv4Adapter) (seg : TCPSegment) :
    (seg.header.sport = a.config.destination.port ∧ a.fromPeer seg = (a, .ok (some seg))) ∨
      (seg.header.sport ≠ a.config.destination.port ∧ a.fromPeer seg = (a, .ok none)) := by
  by_cases hsport : seg.header.sport = a.config.destination.port
  · exact .inl ⟨hsport, by simp [fromPeer, hsport]⟩
  · exact .inr ⟨hsport, by simp [fromPeer, hsport]⟩

/-- A datagram that is not accepted fails one of the checks: nothing is returned or changed. -/
theorem unwrap_not_accepted (h : ∀ seg, ¬ Accepts a d seg) :
    ∃ result, a.unwrapTcpInIp d = (a, result) ∧ ∀ seg, result ≠ .ok (some seg) := by
  unfold unwrapTcpInIp
  split
  · exact ⟨_, rfl, by simp⟩
  · rename_i hdst
    split
    · exact ⟨_, rfl, by simp⟩
    · rename_i hsrc
      split
      · exact ⟨_, rfl, by simp⟩
      · rename_i hproto
        cases hbuffer : d.payload.toBuffer with
        | error e => exact ⟨_, rfl, by simp⟩
        | ok buffer =>
          dsimp only
          generalize hparse : TCPSegment.parse {} buffer d.header.pseudoCksum = parsed
          obtain ⟨seg, result⟩ := parsed
          have hchecks : result = .noError → seg.header.dport = a.config.source.port →
              (a.listening = false → seg.header.sport = a.config.destination.port) →
              (a.listening = true → seg.header.syn = true ∧ seg.header.rst = false) → False := by
            intro hresult hdport hsport hopens
            subst hresult
            apply h seg
            refine ⟨⟨buffer, hbuffer, hparse⟩, not_not.1 hproto, hdport, ?_, hopens⟩
            intro hlisten
            simp only [hlisten, true_and, not_not] at hdst hsrc
            exact ⟨hdst, hsrc, hsport hlisten⟩
          split
          · exact ⟨_, rfl, by simp⟩
          · rename_i hresult
            split
            · exact ⟨_, rfl, by simp⟩
            · rename_i hdport
              have hchecks := hchecks (not_not.1 hresult) (not_not.1 hdport)
              split
              · rename_i hlisten
                split
                · rename_i hopens
                  exact (hchecks (by simp [hlisten]) (fun _ => hopens)).elim
                · exact ⟨_, rfl, by simp⟩
              · rename_i hlisten
                obtain ⟨hsport, -⟩ | ⟨-, hpeer⟩ := a.fromPeer_cases seg
                · exact (hchecks (fun _ => hsport) (by simp [hlisten])).elim
                · exact ⟨_, hpeer, by simp⟩

/-- **Whatever is returned was accepted**; otherwise nothing changes. -/
theorem unwrap_cases (a : TCPOverIPv4Adapter) (d : InternetDatagram) :
    (∃ seg, Accepts a d seg ∧ a.unwrapTcpInIp d = (a.connected d seg, .ok (some seg))) ∨
      (∃ result, a.unwrapTcpInIp d = (a, result) ∧ ∀ seg, result ≠ .ok (some seg)) := by
  by_cases haccepts : ∃ seg, Accepts a d seg
  · obtain ⟨seg, haccepts⟩ := haccepts
    exact .inl ⟨seg, haccepts, unwrap_accepted haccepts⟩
  · exact .inr (unwrap_not_accepted (not_exists.1 haccepts))

/-! ## Wrapping and unwrapping -/

/-- Each one's source is the other's destination. -/
def Mirrors (a b : TCPOverIPv4Adapter) : Prop :=
  b.config.source = a.config.destination ∧ b.config.destination = a.config.source

/-- `wrap_tcp_in_ip` of a segment that can be serialized. -/
theorem wrap_eq {payload : BufferList}
    (h : (a.setPorts seg).serialize (a.ipHeader (a.setPorts seg)).pseudoCksum = .ok payload) :
    (a.wrapTcpInIp seg).2 = .ok ⟨a.ipHeader (a.setPorts seg), payload⟩ := by
  simp [wrapTcpInIp, h]

/-- The length in the header is that of the datagram, if it fits. -/
theorem toNat_len_ipHeader (a : TCPOverIPv4Adapter) {seg : TCPSegment}
    (hlen : 20 + 4 * seg.header.doff.toNat + seg.payload.length ≤ 65535) :
    (a.ipHeader seg).len.toNat = 20 + 4 * seg.header.doff.toNat + seg.payload.length := by
  have hhlen : ({} : IPv4Header).hlen.toNat = 5 := by decide
  have htotal : (a.ipHeader seg).len = UInt16.ofNat (({} : IPv4Header).hlen.toNat * 4 +
      seg.header.doff.toNat * 4 + seg.payload.length) := rfl
  rw [htotal, hhlen, UInt16.toNat_ofNat']
  omega

/-- **The two layers of bytes**: the wrapped segment is serialized, parsed as a datagram, and its
payload as a segment. -/
theorem exists_wrapped (a : TCPOverIPv4Adapter) {seg : TCPSegment} (d : InternetDatagram)
    (h5 : 5 ≤ seg.header.doff.toNat) (h15 : seg.header.doff.toNat ≤ 15)
    (hlen : 20 + 4 * seg.header.doff.toNat + seg.payload.length ≤ 65535) :
    ∃ dgram s payload k cksum, (a.wrapTcpInIp seg).2 = .ok dgram ∧ dgram.serialize = .ok s ∧
      d.parse (Buffer.ofString s.concatenate) =
        (⟨(a.ipHeader (a.setPorts seg)).setCksum k, BufferList.ofString payload⟩, .noError) ∧
      TCPSegment.parse {} (Buffer.ofString payload)
          ((a.ipHeader (a.setPorts seg)).setCksum k).pseudoCksum =
        (⟨(a.setPorts seg).header.setCksum cksum, seg.payload⟩, .noError) := by
  have h5' : 5 ≤ (a.setPorts seg).header.doff.toNat := h5
  have hfits : 4 * (a.setPorts seg).header.doff.toNat +
      (a.setPorts seg).payload.length ≤ 65535 := by
    change 4 * seg.header.doff.toNat + seg.payload.length ≤ 65535
    omega
  obtain ⟨payload, hpayload, hsize, -, hparse⟩ := TCPSegment.exists_parse_serialize h5' h15 hfits
    (IPv4Header.toNat_pseudoCksum_le (a.ipHeader (a.setPorts seg))) {}
  have hheader : (a.ipHeader (a.setPorts seg)).hlen.toNat = 5 :=
    show ({} : IPv4Header).hlen.toNat = 5 by decide
  have htotal : (a.ipHeader (a.setPorts seg)).len.toNat =
      20 + 4 * (a.setPorts seg).header.doff.toNat + (a.setPorts seg).payload.length :=
    a.toNat_len_ipHeader hlen
  obtain ⟨s, hs, -, hdgram⟩ := IPv4Datagram.exists_parse_serialize
    ⟨a.ipHeader (a.setPorts seg), payload⟩ d {} rfl (by rw [hheader]) (by rw [hheader]; decide)
    (show (0 : UInt16).toNat < 2 ^ 13 by decide) (by rw [htotal, hheader, hsize]; omega)
  rw [← IPv4Header.pseudoCksum_setCksum _ (a.ipHeader (a.setPorts seg)).newCksum] at hparse
  exact ⟨_, s, payload.concatenate, _, _, wrap_eq hpayload, hs, hdgram, hparse⟩

/-- **Through all layers**: what `a` wraps is serialized, parsed and unwrapped by an adapter that is
connected to `a`, or by one that listens on the port and gets a SYN. It is the segment with the
ports of the configuration, but for the checksum, and the two adapters are then connected. -/
theorem wrap_unwrap (a b : TCPOverIPv4Adapter) (seg : TCPSegment) (d : InternetDatagram)
    (h5 : 5 ≤ seg.header.doff.toNat) (h15 : seg.header.doff.toNat ≤ 15)
    (hlen : 20 + 4 * seg.header.doff.toNat + seg.payload.length ≤ 65535)
    (hb : (b.listening = false ∧ Mirrors a b) ∨
      (b.listening = true ∧ b.config.source.port = a.config.destination.port ∧
        seg.header.syn = true ∧ seg.header.rst = false)) :
    ∃ dgram s seg' b', (a.wrapTcpInIp seg).2 = .ok dgram ∧ dgram.serialize = .ok s ∧
      (d.parse (Buffer.ofString s.concatenate)).2 = .noError ∧
      b.unwrapTcpInIp (d.parse (Buffer.ofString s.concatenate)).1 = (b', .ok (some seg')) ∧
      seg'.payload = seg.payload ∧
      seg'.header.setCksum seg.header.cksum = (a.setPorts seg).header ∧
      (b.listening = false → b' = b) ∧ b'.listening = false ∧ Mirrors a b' := by
  obtain ⟨dgram, s, payload, k, cksum, hwrap, hs, hparse, hsegment⟩ :=
    a.exists_wrapped d h5 h15 hlen
  -- the two ends agree on the addresses and the ports
  have haccepts : Accepts b
      ⟨(a.ipHeader (a.setPorts seg)).setCksum k, BufferList.ofString payload⟩
      ⟨(a.setPorts seg).header.setCksum cksum, seg.payload⟩ := by
    refine ⟨⟨Buffer.ofString payload, rfl, hsegment⟩, rfl, ?_, ?_, ?_⟩
    · obtain ⟨-, hsource, -⟩ | ⟨-, hport, -⟩ := hb
      · exact congrArg Address.port hsource.symm
      · exact hport.symm
    · intro hlisten
      obtain ⟨-, hsource, hdest⟩ | ⟨hlisten', -⟩ := hb
      · exact ⟨congrArg Address.ip hsource.symm, congrArg Address.ip hdest.symm,
          congrArg Address.port hdest.symm⟩
      · rw [hlisten] at hlisten'
        cases hlisten'
    · intro hlisten
      obtain ⟨hlisten', -⟩ | ⟨-, -, hflags⟩ := hb
      · rw [hlisten] at hlisten'
        cases hlisten'
      · exact hflags
  refine ⟨dgram, s, ⟨(a.setPorts seg).header.setCksum cksum, seg.payload⟩, _, hwrap, hs,
    by rw [hparse], by rw [hparse, unwrap_accepted haccepts], rfl, rfl, connected_of_not_listening,
    listening_connected _ _ _, ?_⟩
  obtain ⟨hlisten, hmirrors⟩ | ⟨hlisten, hport, -⟩ := hb
  · rw [connected_of_not_listening hlisten]
    exact hmirrors
  · simp only [connected, hlisten, ↓reduceIte, hport]
    exact ⟨rfl, rfl⟩

/-- A byte between two connected adapters, and a SYN to a listening one. -/
theorem wrap_unwrap_of_session :
    (∃ dgram s seg' b',
      (wrapTcpInIp ⟨⟨⟨1, 10⟩, ⟨2, 20⟩⟩, false⟩ ⟨{}, [97]⟩).2 = .ok dgram ∧
      IPv4Datagram.serialize dgram = .ok s ∧
      (IPv4Datagram.parse {} (Buffer.ofString s.concatenate)).2 = .noError ∧
      unwrapTcpInIp ⟨⟨⟨2, 20⟩, ⟨1, 10⟩⟩, false⟩
        (IPv4Datagram.parse {} (Buffer.ofString s.concatenate)).1 = (b', .ok (some seg')) ∧
      seg'.payload = [97] ∧ seg'.header.setCksum 0 = { sport := 10, dport := 20 } ∧
      (false = false → b' = ⟨⟨⟨2, 20⟩, ⟨1, 10⟩⟩, false⟩) ∧ b'.listening = false ∧
      Mirrors ⟨⟨⟨1, 10⟩, ⟨2, 20⟩⟩, false⟩ b') ∧
    (∃ dgram s seg' b',
      (wrapTcpInIp ⟨⟨⟨1, 10⟩, ⟨2, 20⟩⟩, false⟩ ⟨{ syn := true }, []⟩).2 = .ok dgram ∧
      IPv4Datagram.serialize dgram = .ok s ∧
      (IPv4Datagram.parse {} (Buffer.ofString s.concatenate)).2 = .noError ∧
      unwrapTcpInIp ⟨⟨⟨0, 20⟩, ⟨0, 0⟩⟩, true⟩
        (IPv4Datagram.parse {} (Buffer.ofString s.concatenate)).1 = (b', .ok (some seg')) ∧
      seg'.payload = [] ∧ seg'.header.setCksum 0 = { sport := 10, dport := 20, syn := true } ∧
      (true = false → b' = ⟨⟨⟨0, 20⟩, ⟨0, 0⟩⟩, true⟩) ∧ b'.listening = false ∧
      Mirrors ⟨⟨⟨1, 10⟩, ⟨2, 20⟩⟩, false⟩ b') :=
  ⟨wrap_unwrap ⟨⟨⟨1, 10⟩, ⟨2, 20⟩⟩, false⟩ ⟨⟨⟨2, 20⟩, ⟨1, 10⟩⟩, false⟩ ⟨{}, [97]⟩ {} (by decide)
      (by decide) (by decide) (.inl ⟨rfl, rfl, rfl⟩),
    wrap_unwrap ⟨⟨⟨1, 10⟩, ⟨2, 20⟩⟩, false⟩ ⟨⟨⟨0, 20⟩, ⟨0, 0⟩⟩, true⟩ ⟨{ syn := true }, []⟩ {}
      (by decide) (by decide) (by decide) (.inr ⟨rfl, rfl, rfl, rfl⟩)⟩

end TCPOverIPv4Adapter

end Sponge
