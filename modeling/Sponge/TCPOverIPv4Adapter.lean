import Sponge.NetworkInterface
import Sponge.TCPSegmentCodec

/-!
# TCP segments in IPv4 datagrams

`libsponge/tcp_helpers/tcp_over_ip.hh`, `tcp_over_ip.cc`, the base class of `fd_adapter.hh` and the
adapter's part of `tcp_config.hh`; the loss rates belong to `LossyFdAdapter` and are left out. An
address goes through `inet_ntoa` and back into an `Address`, which is taken to keep it.

`unwrap_tcp_in_ip` throws when the payload of the datagram is not contiguous, and `wrap_tcp_in_ip`
when the segment cannot be serialized.
-/

namespace Sponge

/-- `IPv4Header::PROTO_TCP`: protocol number for TCP. -/
def IPv4Header.protoTCP : UInt8 := 6

/-- Config for classes derived from FdAdapter. -/
structure FdAdapterConfig where
  source : Address := { ip := 0 }
  destination : Address := { ip := 0 }
deriving DecidableEq, Repr

/-- A converter from TCP segments to serialized IPv4 datagrams. -/
structure TCPOverIPv4Adapter where
  cfg : FdAdapterConfig := {}
  /-- Is the connected TCP FSM in listen state? -/
  listen : Bool := false
deriving DecidableEq, Repr

namespace TCPOverIPv4Adapter

def config (a : TCPOverIPv4Adapter) : FdAdapterConfig := a.cfg

def listening (a : TCPOverIPv4Adapter) : Bool := a.listen

/-- The end of `unwrap_tcp_in_ip`: is the TCP segment from our peer? -/
def fromPeer (a : TCPOverIPv4Adapter) (tcpSeg : TCPSegment) :
    TCPOverIPv4Adapter × Except Exn (Option TCPSegment) :=
  if tcpSeg.header.sport ≠ a.config.destination.port then (a, .ok none) else (a, .ok (some tcpSeg))

/-- Attempts to parse a TCP segment that is related to the current connection from the datagram's
payload; the first SYN makes a listening adapter a connected one. -/
def unwrapTcpInIp (a : TCPOverIPv4Adapter) (ipDgram : InternetDatagram) :
    TCPOverIPv4Adapter × Except Exn (Option TCPSegment) :=
  -- is the IPv4 datagram for us?
  if a.listening = false ∧ ipDgram.header.dst ≠ a.config.source.ipv4Numeric then (a, .ok none)
  -- is the IPv4 datagram from our peer?
  else if a.listening = false ∧ ipDgram.header.src ≠ a.config.destination.ipv4Numeric then
    (a, .ok none)
  -- does the IPv4 datagram claim that its payload is a TCP segment?
  else if ipDgram.header.proto ≠ IPv4Header.protoTCP then (a, .ok none)
  else
    match ipDgram.payload.toBuffer with
    | .error e => (a, .error e)
    | .ok buffer =>
      -- is the payload a valid TCP segment?
      let (tcpSeg, result) := TCPSegment.parse {} buffer ipDgram.header.pseudoCksum
      if result ≠ .noError then (a, .ok none)
      -- is the TCP segment for us?
      else if tcpSeg.header.dport ≠ a.config.source.port then (a, .ok none)
      -- should we target this source addr/port in reply?
      else if a.listening = true then
        if tcpSeg.header.syn = true ∧ tcpSeg.header.rst = false then
          fromPeer
            { cfg :=
                { source := { ip := ipDgram.header.dst, port := a.config.source.port }
                  destination := { ip := ipDgram.header.src, port := tcpSeg.header.sport } }
              listen := false }
            tcpSeg
        else (a, .ok none)
      else a.fromPeer tcpSeg

/-- The segment with the port numbers of the configuration. -/
def setPorts (a : TCPOverIPv4Adapter) (seg : TCPSegment) : TCPSegment :=
  { seg with
    header :=
      { seg.header with sport := a.config.source.port, dport := a.config.destination.port } }

/-- The header of the datagram for a segment: its addresses and its length, modulo `2 ^ 16`. -/
def ipHeader (a : TCPOverIPv4Adapter) (seg : TCPSegment) : IPv4Header :=
  let header : IPv4Header := {}
  { header with
    src := a.config.source.ipv4Numeric
    dst := a.config.destination.ipv4Numeric
    len :=
      UInt16.ofNat (header.hlen.toNat * 4 + seg.header.doff.toNat * 4 + seg.payload.length) }

/-- Takes a TCP segment, sets port numbers as necessary, and wraps it in an IPv4 datagram: the
segment with its ports and the datagram. -/
def wrapTcpInIp (a : TCPOverIPv4Adapter) (seg : TCPSegment) :
    TCPSegment × Except Exn InternetDatagram :=
  let seg := a.setPorts seg
  let header := a.ipHeader seg
  match seg.serialize header.pseudoCksum with
  | .error e => (seg, .error e)
  | .ok payload => (seg, .ok { header := header, payload := payload })

end TCPOverIPv4Adapter

end Sponge
