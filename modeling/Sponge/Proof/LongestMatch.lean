import Mathlib.Data.Nat.Bitwise
import Sponge.Proof.RouterSafety

/-!
# Longest-prefix routing

* `isMatch_iff`: the shift of `route_one_datagram` compares the leading `prefix_length` bits of the
  two addresses, for all lengths from 0 to 32.
* `Longest`: the entry the scan of the table ends with. Routes are only ever appended, so that the
  entries in front of it are those added before it.
* `route_eq`: `route` is `route_one_datagram` on the queued datagrams, one after another, and the
  queues are empty after it.
* `Travels`: what becomes of one datagram in a network of such routers, whatever their routes and
  links. Every forwarding takes one from its time to live (`Travels.ttl`).
-/

namespace Sponge

open Run

/-! ## The entry that is found -/

namespace RouteItem

/-- The leading `prefix_length` bits of the two addresses, as numbers. -/
def Covers (item : RouteItem) (dst : UInt32) : Prop :=
  dst.toNat / 2 ^ (32 - item.prefixLength.toNat) =
    item.routePrefix.toNat / 2 ^ (32 - item.prefixLength.toNat)

instance (item : RouteItem) (dst : UInt32) : Decidable (item.Covers dst) :=
  inferInstanceAs (Decidable (dst.toNat / 2 ^ (32 - item.prefixLength.toNat) =
    item.routePrefix.toNat / 2 ^ (32 - item.prefixLength.toNat)))

theorem shift_xor_eq_zero {a b : UInt32} {k : ℕ} (hk : k < 32) {s : UInt32} (hs : s.toNat = k) :
    (a ^^^ b) >>> s = 0 ↔ b.toNat / 2 ^ k = a.toNat / 2 ^ k := by
  rw [← UInt32.toNat_inj, UInt32.toNat_shiftRight, UInt32.toNat_xor, hs, Nat.mod_eq_of_lt hk,
    Nat.shiftRight_xor_distrib, Nat.shiftRight_eq_div_pow, Nat.shiftRight_eq_div_pow]
  exact Nat.xor_eq_zero_iff.trans eq_comm

theorem isMatch_iff (item : RouteItem) (dst : UInt32) :
    item.isMatch dst = true ↔ item.Covers dst := by
  have hle : item.prefixLength.toNat ≤ 32 := item.length_le
  rw [isMatch, Bool.or_eq_true, beq_iff_eq, beq_iff_eq, Covers]
  by_cases hzero : item.prefixLength = 0
  · -- the shift by 32 is avoided, and there are no bits to compare
    have hdst : dst.toNat / 2 ^ 32 = 0 := Nat.div_eq_of_lt dst.toNat_lt
    have hroute : item.routePrefix.toNat / 2 ^ 32 = 0 :=
      Nat.div_eq_of_lt item.routePrefix.toNat_lt
    simp only [hzero, UInt8.toNat_zero, Nat.sub_zero, hdst, hroute, true_or]
  · have hpos : item.prefixLength.toNat ≠ 0 := by
      rwa [← UInt8.toNat_inj] at hzero
    have hshift : (32 - item.prefixLength).toUInt32.toNat = 32 - item.prefixLength.toNat := by
      rw [UInt8.toNat_toUInt32, UInt8.toNat_sub_of_le _ _ item.length_le]
      rfl
    rw [shift_xor_eq_zero (by omega) hshift, or_iff_right hzero]

end RouteItem

namespace Router

variable {r : Router} {dgram : InternetDatagram}

/-- The longest of the entries that cover the destination, and of several the one added first. -/
def Longest (table : List RouteItem) (dst : UInt32) (entry : RouteItem) : Prop :=
  ∃ before after, table = before ++ entry :: after ∧ entry.Covers dst ∧
    (∀ item ∈ before, item.Covers dst → item.prefixLength < entry.prefixLength) ∧
    ∀ item ∈ after, item.Covers dst → item.prefixLength ≤ entry.prefixLength

theorem Longest.le {table : List RouteItem} {dst : UInt32} {entry item : RouteItem}
    (h : Longest table dst entry) (hitem : item ∈ table) (hcovers : item.Covers dst) :
    item.prefixLength ≤ entry.prefixLength := by
  obtain ⟨before, after, rfl, -, hbefore, hafter⟩ := h
  rw [List.mem_append, List.mem_cons] at hitem
  obtain hitem | rfl | hitem := hitem
  · exact UInt8.le_of_lt (hbefore item hitem hcovers)
  · exact UInt8.le_refl _
  · exact hafter item hitem hcovers

/-- An entry that is not a longer match does not replace the one found. -/
theorem Longest.concat {table : List RouteItem} {dst : UInt32} {entry item : RouteItem}
    (h : Longest table dst entry)
    (hitem : item.Covers dst → item.prefixLength ≤ entry.prefixLength) :
    Longest (table ++ [item]) dst entry := by
  obtain ⟨before, after, rfl, hentry, hbefore, hafter⟩ := h
  refine ⟨before, after ++ [item], by simp, hentry, hbefore, ?_⟩
  rw [List.forall_mem_append, List.forall_mem_singleton]
  exact ⟨hafter, hitem⟩

theorem longest_last {table : List RouteItem} {dst : UInt32} {item : RouteItem}
    (hitem : item.Covers dst)
    (hothers : ∀ other ∈ table, other.Covers dst → other.prefixLength < item.prefixLength) :
    Longest (table ++ [item]) dst item :=
  ⟨table, [], rfl, hitem, hothers, List.forall_mem_nil _⟩

/-- **The scan of the table**, entry by entry. -/
theorem foldl_betterMatch_cases (dst : UInt32) (table : List RouteItem) :
    (table.foldl (betterMatch dst) none = none ∧ ∀ item ∈ table, ¬ item.Covers dst) ∨
      ∃ entry, table.foldl (betterMatch dst) none = some entry ∧ Longest table dst entry := by
  induction table using List.reverseRecOn with
  | nil => exact .inl ⟨rfl, List.forall_mem_nil _⟩
  | append_singleton table item ih =>
    rw [List.foldl_concat]
    generalize table.foldl (betterMatch dst) none = found at ih ⊢
    unfold betterMatch
    simp only [item.isMatch_iff dst]
    by_cases hitem : item.Covers dst
    · rw [if_pos hitem]
      right
      obtain ⟨rfl, hnone⟩ | ⟨entry, rfl, hlongest⟩ := ih
      · refine ⟨item, rfl, longest_last hitem ?_⟩
        intro other hother hcovers
        exact absurd hcovers (hnone other hother)
      · dsimp only
        split
        · rename_i hlt
          refine ⟨item, rfl, longest_last hitem ?_⟩
          intro other hother hcovers
          exact UInt8.lt_of_le_of_lt (hlongest.le hother hcovers) hlt
        · rename_i hlt
          exact ⟨entry, rfl, hlongest.concat fun _ => UInt8.not_lt.1 hlt⟩
    · rw [if_neg hitem]
      obtain ⟨hfound, hnone⟩ | ⟨entry, hfound, hlongest⟩ := ih
      · left
        rw [List.forall_mem_append, List.forall_mem_singleton]
        exact ⟨hfound, hnone, hitem⟩
      · right
        exact ⟨entry, hfound, hlongest.concat fun hcovers => absurd hcovers hitem⟩

/-! ## One datagram -/

/-- `route_one_datagram` is one call of `send_datagram`, on the interface of `entry` with `sent`,
which differs from the datagram in the time to live only. -/
structure HandsOver (r : Router) (dgram : InternetDatagram) (entry : RouteItem)
    (ni : AsyncNetworkInterface) (sent : InternetDatagram) : Prop where
  longest : Longest r.routeTable dgram.header.dst entry
  found : r.interfaces[entry.interfaceNum]? = some ni
  ttl : sent.header.ttl.toNat + 1 = dgram.header.ttl.toNat
  header : { sent.header with ttl := dgram.header.ttl } = dgram.header
  payload : sent.payload = dgram.payload
  routed : r.routeOneDatagram dgram =
    (r.setInterface entry.interfaceNum (ni.setBase
      (ni.sendDatagram sent (entry.nextHop.getD { ip := dgram.header.dst })).1), sent,
      (ni.sendDatagram sent (entry.nextHop.getD { ip := dgram.header.dst })).2)
  returns : (ni.sendDatagram sent (entry.nextHop.getD { ip := dgram.header.dst })).2 = .ok ()

theorem forwards_iff : r.Forwards dgram ↔
    (∃ item ∈ r.routeTable, item.Covers dgram.header.dst) ∧ 2 ≤ dgram.header.ttl.toNat := by
  unfold Forwards
  simp only [RouteItem.isMatch_iff]
  exact and_comm

theorem toNat_ttl_decrementTtl (h : 2 ≤ dgram.header.ttl.toNat) :
    (decrementTtl dgram).header.ttl.toNat + 1 = dgram.header.ttl.toNat := by
  have hle : (1 : UInt8) ≤ dgram.header.ttl := by
    rw [UInt8.le_iff_toNat_le]
    exact Nat.le_of_succ_le h
  have hsub := UInt8.toNat_sub_of_le _ _ hle
  have hone : (1 : UInt8).toNat = 1 := rfl
  change (dgram.header.ttl - 1).toNat + 1 = _
  omega

theorem routeOneDatagram_of_not_forwards (hroutes : r.RoutesExist) (h : ¬ r.Forwards dgram) :
    ∃ dgram', r.routeOneDatagram dgram = (r, dgram', .ok ()) := by
  obtain ⟨-, hsame⟩ | ⟨hforwards, -⟩ := routeOneDatagram_cases hroutes dgram
  · exact hsame
  · exact absurd hforwards h

theorem HandsOver.forwards {entry : RouteItem} {ni : AsyncNetworkInterface}
    {sent : InternetDatagram} (hroutes : r.RoutesExist) (h : HandsOver r dgram entry ni sent) :
    r.Forwards dgram := by
  by_contra hnot
  obtain ⟨dgram', hsame⟩ := routeOneDatagram_of_not_forwards hroutes hnot
  have hsame := congrArg Prod.fst (h.routed.symm.trans hsame)
  have hset := getElem?_setInterface h.found (ni.setBase
    (ni.sendDatagram sent (entry.nextHop.getD { ip := dgram.header.dst })).1)
  dsimp only at hsame
  rw [hsame, h.found, Option.some_inj] at hset
  have hbase := congrArg AsyncNetworkInterface.toNetworkInterface hset
  exact NetworkInterface.sendDatagram_ne h.returns hbase.symm

theorem exists_handsOver (hroutes : r.RoutesExist) (hser : dgram.Serializable)
    (h : r.Forwards dgram) : ∃ entry ni, HandsOver r dgram entry ni (decrementTtl dgram) := by
  obtain ⟨⟨item, hitem, hcovers⟩, httl⟩ := forwards_iff.1 h
  obtain ⟨-, hnone⟩ | ⟨entry, hscan, hlongest⟩ :=
    foldl_betterMatch_cases dgram.header.dst r.routeTable
  · exact absurd hcovers (hnone item hitem)
  · have hmatch : r.matchEntry dgram.header.dst = some entry := hscan
    have hlt := hroutes entry (mem_of_matchEntry hmatch)
    have hni : r.interfaces[entry.interfaceNum]? = some r.interfaces[entry.interfaceNum] :=
      List.getElem?_eq_getElem hlt
    refine ⟨entry, _, hlongest, hni, toNat_ttl_decrementTtl httl, rfl, rfl, ?_,
      NetworkInterface.sendDatagram_returns _ (serializable_decrementTtl.2 hser) _⟩
    unfold routeOneDatagram
    simp only [hmatch, if_pos h.1, interface, hni]

/-! ## All queues -/

/-- The router after routing one datagram. -/
def forward (r : Router) (dgram : InternetDatagram) : Router := (r.routeOneDatagram dgram).1

/-- The datagrams in the queues, in the order in which `route` gets to them. -/
def queued (r : Router) : List InternetDatagram :=
  r.interfaces.flatMap AsyncNetworkInterface.datagramsOut

/-- The same router with its queues empty. -/
def emptied (r : Router) : Router :=
  { r with interfaces := r.interfaces.map fun ni => { ni with datagramsOut := [] } }

/-- The queue of the interface `i`. -/
def queueAt (r : Router) (i : ℕ) : List InternetDatagram :=
  (r.interfaces[i]?.map AsyncNetworkInterface.datagramsOut).getD []

theorem flatMap_queueAt (r : Router) :
    (List.range r.interfaces.length).flatMap r.queueAt = r.queued := by
  obtain ⟨interfaces, table⟩ := r
  unfold queued
  induction interfaces with
  | nil => rfl
  | cons ni interfaces ih =>
    rw [List.length_cons, List.range_succ_eq_map, List.flatMap_cons, List.flatMap_map,
      List.flatMap_cons, ← ih]
    rfl

/-- Routing does not look at the queues. -/
theorem routeOneDatagram_emptied (r : Router) (dgram : InternetDatagram) :
    r.emptied.routeOneDatagram dgram =
      ((r.routeOneDatagram dgram).1.emptied, (r.routeOneDatagram dgram).2) := by
  have hmatch : r.emptied.matchEntry dgram.header.dst = r.matchEntry dgram.header.dst := rfl
  unfold routeOneDatagram
  dsimp only
  rw [hmatch]
  cases r.matchEntry dgram.header.dst with
  | none => rfl
  | some entry =>
    dsimp only
    split
    · have hni : r.emptied.interfaces[entry.interfaceNum]? =
          r.interfaces[entry.interfaceNum]?.map fun ni => { ni with datagramsOut := [] } :=
        List.getElem?_map
      have hlen : r.emptied.interfaces.length = r.interfaces.length := List.length_map _
      rw [interface, hni, interface, hlen]
      cases r.interfaces[entry.interfaceNum]? with
      | none => rfl
      | some ni => simp [emptied, setInterface, AsyncNetworkInterface.setBase, List.map_set]
    · rfl

theorem forward_emptied (r : Router) (dgram : InternetDatagram) :
    r.emptied.forward dgram = (r.forward dgram).emptied :=
  congrArg Prod.fst (routeOneDatagram_emptied r dgram)

theorem exec_forward_emptied (r : Router) (queue : List InternetDatagram) :
    exec forward r.emptied queue = (exec forward r queue).emptied := by
  induction queue generalizing r with
  | nil => rfl
  | cons dgram queue ih => rw [exec_cons, exec_cons, forward_emptied, ih]

theorem emptied_setQueue (r : Router) (i : ℕ) (queue : List InternetDatagram) :
    (r.setQueue i queue).emptied = r.emptied := by
  have hlist : (r.interfaces.modify i fun ni => { ni with datagramsOut := queue }).map
      (fun ni => ({ ni with datagramsOut := [] } : AsyncNetworkInterface)) =
      r.interfaces.map fun ni => { ni with datagramsOut := [] } := by
    apply List.ext_getElem?
    intro n
    simp only [List.getElem?_map, List.getElem?_modify]
    cases r.interfaces[n]? with
    | none => rfl
    | some ni =>
      by_cases hn : i = n
      · simp [hn]
      · simp [hn]
  simp [emptied, setQueue, hlist]

theorem emptied_eq_self (h : ∀ i, r.queueAt i = []) : r.emptied = r := by
  obtain ⟨interfaces, table⟩ := r
  have hlist : interfaces.map (fun ni => { ni with datagramsOut := [] }) = interfaces := by
    apply List.ext_getElem?
    intro n
    have hn := h n
    unfold queueAt at hn
    rw [List.getElem?_map]
    dsimp only at hn
    cases hni : interfaces[n]? with
    | none => rfl
    | some ni =>
      rw [hni] at hn
      obtain ⟨base, queue⟩ := ni
      simp only [Option.map_some, Option.getD_some] at hn
      simp [hn]
  simp [emptied, hlist]

/-- **Run**: the inner loop routes the queue, and leaves it empty. -/
theorem routeQueue_returns (hroutes : r.RoutesExist) {queue : List InternetDatagram}
    (hqueue : ∀ dgram ∈ queue, dgram.Serializable) {i : ℕ} (hi : r.queueAt i = queue) :
    (routeQueue i queue r).2 = .ok () ∧ (routeQueue i queue r).1.queueAt i = [] ∧
      (routeQueue i queue r).1.emptied = exec forward r.emptied queue := by
  induction queue generalizing r with
  | nil => exact ⟨rfl, hi, rfl⟩
  | cons dgram queue ih =>
    rw [List.forall_mem_cons] at hqueue
    have hok := routeOneDatagram_returns hroutes fun _ => hqueue.1
    have hext := extends_routeOneDatagram hroutes dgram
    have hout := datagramsOut_routeOneDatagram hroutes dgram i
    rw [exec_cons, forward_emptied, routeQueue, forward]
    generalize r.routeOneDatagram dgram = routed at hok hext hout ⊢
    obtain ⟨r', dgram', result⟩ := routed
    dsimp only at hok hext hout
    subst hok
    have hpop : Extends r (r'.setQueue i queue) := hext.trans (extends_setQueue i queue)
    have hi' : (r'.setQueue i queue).queueAt i = queue := by
      unfold queueAt at hi ⊢
      rw [← hout] at hi
      simp only [setQueue, List.getElem?_modify]
      cases hni : r'.interfaces[i]? with
      | none => simp [hni] at hi
      | some ni => simp
    have hrest := ih (hpop.routesExist hroutes) hqueue.2 hi'
    rwa [emptied_setQueue] at hrest

theorem routeInterfaces_cons {i : ℕ} {r' : Router}
    (h : routeQueue i (r.queueAt i) r = (r', .ok ())) (is : List ℕ) :
    routeInterfaces (i :: is) r = routeInterfaces is r' := by
  rw [routeInterfaces]
  cases hni : r.interfaces[i]? with
  | none =>
    simp only [queueAt, hni, Option.map_none, Option.getD_none, routeQueue, Prod.mk.injEq] at h
    rw [h.1]
  | some ni =>
    simp only [queueAt, hni, Option.map_some, Option.getD_some] at h
    simp only [h]

/-- **Run**: the outer loop, over interfaces none of which comes twice. -/
theorem routeInterfaces_returns (hroutes : r.RoutesExist) {is : List ℕ} (his : is.Nodup)
    (hqueue : ∀ i ∈ is, ∀ dgram ∈ r.queueAt i, dgram.Serializable) :
    (routeInterfaces is r).2 = .ok () ∧
      (∀ i, (routeInterfaces is r).1.queueAt i = if i ∈ is then [] else r.queueAt i) ∧
      (routeInterfaces is r).1.emptied = exec forward r.emptied (is.flatMap r.queueAt) := by
  induction is generalizing r with
  | nil => exact ⟨rfl, fun _ => rfl, rfl⟩
  | cons i is ih =>
    rw [List.forall_mem_cons] at hqueue
    rw [List.nodup_cons] at his
    have hone := routeQueue_returns hroutes hqueue.1 rfl
    have hext := extends_routeQueue hroutes i (r.queueAt i)
    have hothers : ∀ n, n ≠ i →
        (routeQueue i (r.queueAt i) r).1.queueAt n = r.queueAt n := by
      intro n hn
      unfold queueAt
      rw [datagramsOut_routeQueue hroutes hn]
    generalize hrouted : routeQueue i (r.queueAt i) r = routed at hone hext hothers
    obtain ⟨r', result⟩ := routed
    obtain ⟨hok, hempty, hemptied⟩ := hone
    dsimp only at hok hempty hemptied hothers
    subst hok
    rw [routeInterfaces_cons hrouted, List.flatMap_cons, exec_append]
    -- the queues still to visit are as they were
    have hrest : ∀ n ∈ is, r'.queueAt n = r.queueAt n := by
      intro n hn
      apply hothers
      rintro rfl
      exact his.1 hn
    have hqueue' : ∀ n ∈ is, ∀ dgram ∈ r'.queueAt n, dgram.Serializable := by
      intro n hn
      rw [hrest n hn]
      exact hqueue.2 n hn
    obtain ⟨hok, hqueues, hemptied'⟩ := ih (hext.routesExist hroutes) his.2 hqueue'
    refine ⟨hok, ?_, ?_⟩
    · intro n
      rw [hqueues n]
      by_cases hn : n = i
      · simp [hn, hempty]
      · simp [hn, hothers n hn]
    · rw [hemptied', hemptied, List.flatMap_congr hrest]

/-- **`route`** routes every queued datagram once, and leaves the queues empty. -/
theorem route_eq (hroutes : r.RoutesExist)
    (hqueue : ∀ ni ∈ r.interfaces, ∀ dgram ∈ ni.datagramsOut, dgram.Serializable) :
    r.route = ((exec forward r r.queued).emptied, .ok ()) := by
  have hqueue' : ∀ i ∈ List.range r.interfaces.length, ∀ dgram ∈ r.queueAt i,
      dgram.Serializable := by
    intro i hi
    have hni := List.getElem?_eq_getElem (List.mem_range.1 hi)
    simp only [queueAt, hni, Option.map_some, Option.getD_some]
    exact hqueue _ (List.getElem_mem _)
  obtain ⟨hok, hqueues, hemptied⟩ := routeInterfaces_returns hroutes List.nodup_range hqueue'
  have hlength := (extends_route hroutes).length
  have hempty : ∀ i, r.route.1.queueAt i = [] := by
    intro i
    by_cases hi : i < r.interfaces.length
    · exact (hqueues i).trans (if_pos (List.mem_range.2 hi))
    · have hnone : r.route.1.interfaces[i]? = none := by
        rw [List.getElem?_eq_none_iff, hlength]
        exact Nat.le_of_not_lt hi
      simp [queueAt, hnone]
  apply Prod.ext
  · rw [← emptied_eq_self hempty, ← exec_forward_emptied, ← flatMap_queueAt]
    exact hemptied
  · exact hok

/-! ## The time to live -/

/-- What became of a datagram after it was forwarded `n` times, by routers with any routes over any
links. A link brings the bytes of what was sent to an interface that accepts them. -/
inductive Travels (dgram : InternetDatagram) : ℕ → InternetDatagram → Prop
  | start : Travels dgram 0 dgram
  | forwarded {n : ℕ} {now sent : InternetDatagram} {r : Router} {entry : RouteItem}
      {ni : AsyncNetworkInterface} (h : Travels dgram n now) (hroutes : r.RoutesExist)
      (hands : HandsOver r now entry ni sent) : Travels dgram (n + 1) sent
  | carried {n : ℕ} {sent received : InternetDatagram} {payload : BufferList}
      {frame : EthernetFrame} {ni : NetworkInterface} (h : Travels dgram n sent)
      (hser : sent.serialize = .ok payload)
      (hbytes : frame.payload.concatenate = payload.concatenate)
      (hrecv : (ni.recvFrame frame).2 = .ok (some received)) : Travels dgram n received

theorem ttl_of_carried {sent received : InternetDatagram} {payload : BufferList}
    {frame : EthernetFrame} {ni : NetworkInterface} (hser : sent.serialize = .ok payload)
    (hbytes : frame.payload.concatenate = payload.concatenate)
    (hrecv : (ni.recvFrame frame).2 = .ok (some received)) :
    received.header.ttl = sent.header.ttl := by
  obtain ⟨buffer, hbuffer, hparse⟩ := NetworkInterface.recvFrame_some hrecv
  have hpayload := IPv4Datagram.serialize_eq ((IPv4Datagram.serialize_ok_iff sent).1 ⟨_, hser⟩)
  rw [hser, Except.ok.injEq] at hpayload
  rw [(IPv4Datagram.bits_of_noError hparse).2.1, BufferList.str_toBuffer hbuffer, hbytes, hpayload,
    BufferList.concatenate_append, BufferList.concatenate_ofString, List.append_assoc,
    IPv4Header.ttl_ofBits]

/-- Every forwarding takes one from the time to live and leaves some of it. -/
theorem Travels.ttl {now : InternetDatagram} {n : ℕ} (h : Travels dgram n now) :
    now.header.ttl.toNat + n = dgram.header.ttl.toNat ∧ (n = 0 ∨ 1 ≤ now.header.ttl.toNat) := by
  induction h with
  | start => exact ⟨rfl, .inl rfl⟩
  | forwarded _ hroutes hands ih =>
    have htwo := (forwards_iff.1 (hands.forwards hroutes)).2
    have hone := hands.ttl
    omega
  | carried _ hser hbytes hrecv ih => rwa [ttl_of_carried hser hbytes hrecv]

/-! ## Longest-prefix routing -/

/-- **Longest-prefix routing**: a datagram is handed over exactly if a route covers its destination
and its time to live is at least 2, `route` does this with every queued datagram, and no datagram is
forwarded more often than its time to live, less one. -/
theorem longest_match_routing (r : Router) (hroutes : r.RoutesExist) :
    (∀ dgram : InternetDatagram, dgram.Serializable →
      ((∃ entry ni sent, HandsOver r dgram entry ni sent) ↔
        (∃ item ∈ r.routeTable, item.Covers dgram.header.dst) ∧ 2 ≤ dgram.header.ttl.toNat) ∧
      (¬ ((∃ item ∈ r.routeTable, item.Covers dgram.header.dst) ∧
          2 ≤ dgram.header.ttl.toNat) →
        (r.routeOneDatagram dgram).1 = r ∧ (r.routeOneDatagram dgram).2.2 = .ok ())) ∧
    ((∀ ni ∈ r.interfaces, ∀ dgram ∈ ni.datagramsOut, dgram.Serializable) →
      r.route = ((exec forward r r.queued).emptied, .ok ())) ∧
    ∀ (dgram now : InternetDatagram) (n : ℕ), Travels dgram n now →
      n ≤ dgram.header.ttl.toNat - 1 := by
  refine ⟨?_, route_eq hroutes, ?_⟩
  · intro dgram hser
    rw [← forwards_iff]
    constructor
    · constructor
      · rintro ⟨entry, ni, sent, hands⟩
        exact hands.forwards hroutes
      · intro h
        obtain ⟨entry, ni, hands⟩ := exists_handsOver hroutes hser h
        exact ⟨entry, ni, _, hands⟩
    · intro h
      obtain ⟨dgram', hsame⟩ := routeOneDatagram_of_not_forwards hroutes h
      rw [hsame]
      exact ⟨rfl, rfl⟩
  · intro dgram now n h
    have httl := h.ttl
    omega

/-- A datagram for 10.0.0.1. -/
def hopping (ttl : UInt8) : InternetDatagram :=
  ⟨{ ttl, len := 20, dst := 0x0a000001 }, BufferList.ofString []⟩

/-- A second interface, two more routes of the same length, and two datagrams in a queue. -/
def twoPorts : Router :=
  let r := (onePort.addInterface (.new (.replicate 6 2) { ip := 8 })).1
  let r := r.addRoute 0x0a000000 8 none 1 (by decide)
  let r := r.addRoute 0x0a010203 8 none 0 (by decide)
  r.setQueue 0 [hopping 2, hopping 1]

example : (twoPorts.matchEntry 0x0a000001).map RouteItem.interfaceNum = some 1 := by decide

/-- With a time to live of 2 the datagram is forwarded once, and with 1 it is dropped. -/
theorem twoPorts_routing :
    (∃ entry ni sent, HandsOver twoPorts (hopping 2) entry ni sent ∧
      Travels (hopping 2) 1 sent ∧ 1 ≤ (hopping 2).header.ttl.toNat - 1) ∧
    (twoPorts.routeOneDatagram (hopping 1)).1 = twoPorts ∧
    twoPorts.route = ((exec forward twoPorts [hopping 2, hopping 1]).emptied, .ok ()) := by
  have hroutes : twoPorts.RoutesExist := by
    simp [RoutesExist, twoPorts, onePort, addRoute, addInterface, setQueue]
  have hqueue : ∀ ni ∈ twoPorts.interfaces, ∀ dgram ∈ ni.datagramsOut, dgram.Serializable := by
    decide
  obtain ⟨hone, hall, hhops⟩ := longest_match_routing twoPorts hroutes
  obtain ⟨entry, ni, sent, hands⟩ :=
    (hone (hopping 2) (by decide)).1.2 ⟨⟨_, List.mem_cons_self, by decide⟩, by decide⟩
  have htravels : Travels (hopping 2) 1 sent := .forwarded .start hroutes hands
  refine ⟨⟨entry, ni, sent, hands, htravels, hhops _ _ _ htravels⟩, ?_, hall hqueue⟩
  exact ((hone (hopping 1) (by decide)).2 fun h => absurd h.2 (by decide)).1

end Router

end Sponge
