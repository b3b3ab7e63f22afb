import SwarmDb.Lib.Json
import SwarmDb.Pbft.Node

/-!
# The peers document

`peers_beacon` reads a JSON array of peers into a hash set, and orders the set by uuid. The order in which a hash set is
iterated and how `std::sort` leaves elements that compare equal are parameters (`PeerContainers`). Two arrays with the
same elements give the same swarm exactly when peers of one uuid are one peer (`sameSwarm_iff`).
-/

namespace SwarmDb

open Lib

/-- What a peer is told by. -/
def PeerAddress.address (p : PeerAddress) : Uuid × Bytes × UInt16 := (p.uuid, p.host, p.port)

namespace PeersBeacon

/-- `std::unordered_set<peer_address_t>`, by the order in which it shows peers
that were put in one after another, and `std::sort` by uuid. -/
structure PeerContainers where
  iterate : List PeerAddress → List PeerAddress
  sort : List PeerAddress → List PeerAddress
  iterate_perm : ∀ l, (iterate l).Perm l
  sort_perm : ∀ l, (sort l).Perm l
  sorted : ∀ l, (sort l).Pairwise fun a b => ¬ b.uuid < a.uuid

/-- `result.emplace`: a peer that equals one in the set is not put in. -/
def emplace (peers : List PeerAddress) (p : PeerAddress) : List PeerAddress :=
  if p.address ∈ peers.map PeerAddress.address then peers else peers ++ [p]

/-- The peer of an element, with whatever `asString` and the others throw. -/
def readPeer (peer : Json) : Except String (PeerAddress × UInt32) := do
  let host ← (← peer.member (ascii "host")).asString
  let port ← (← peer.member (ascii "port")).asUInt
  let uuid ← if ← peer.isMember (ascii "uuid") then (← peer.member (ascii "uuid")).asString else pure (ascii "unknown")
  let name ← if ← peer.isMember (ascii "name") then (← peer.member (ascii "name")).asString else pure (ascii "unknown")
  pure (⟨host, port.toUInt16, name, uuid⟩, port)

/-- The peer of an element that is not ignored. -/
def parsePeer (peer : Json) : Option PeerAddress :=
  match readPeer peer with
  | .error _ => none
  | .ok (p, port) => if port ≠ p.port.toUInt32 then none else if p.host = [] ∨ p.port = 0 then none else some p

/-- `build_peers_list_from_json`: the peers in the order they are put in. -/
def buildPeersListFromJson (root : List Json) : List PeerAddress := (root.filterMap parsePeer).foldl emplace []

/-- `switch_peers_list` -/
def switchPeersList (c : PeerContainers) (newPeers : List PeerAddress) (s : PeersBeacon) : Bool × PeersBeacon :=
  if newPeers.length = 0 then (false, s)
  else (true, ⟨c.iterate newPeers, c.sort (c.iterate newPeers), c.sort_perm _, c.sorted _⟩)

/-- `parse_and_save_peers`, for a text that is an array. -/
def parseAndSavePeers (c : PeerContainers) (root : List Json) (s : PeersBeacon) : Bool × PeersBeacon :=
  switchPeersList c (buildPeersListFromJson root) s

/-! ## The peers of a document -/

variable {peers l : List PeerAddress} {a : Uuid × Bytes × UInt16} {p : PeerAddress} {root : List Json}

theorem mem_emplace :
    a ∈ (emplace peers p).map PeerAddress.address ↔ a ∈ peers.map PeerAddress.address ∨ a = p.address := by
  rw [emplace]
  split
  · rename_i h
    exact ⟨.inl, fun ha => ha.elim id fun heq => heq ▸ h⟩
  · rw [List.map_append, List.mem_append, List.map_singleton, List.mem_singleton]

theorem nodup_emplace (h : (peers.map PeerAddress.address).Nodup) :
    ((emplace peers p).map PeerAddress.address).Nodup := by
  rw [emplace]
  split
  · exact h
  · rename_i hp
    rw [List.map_append, List.nodup_append]
    refine ⟨h, List.nodup_singleton _, fun a ha b hb heq => ?_⟩
    rw [List.map_singleton, List.mem_singleton] at hb
    exact hp (hb ▸ heq ▸ ha)

theorem mem_foldl_emplace (l peers : List PeerAddress) (a : Uuid × Bytes × UInt16) :
    a ∈ (l.foldl emplace peers).map PeerAddress.address ↔
      a ∈ peers.map PeerAddress.address ∨ a ∈ l.map PeerAddress.address := by
  induction l generalizing peers with
  | nil => simp
  | cons p l ih => rw [List.foldl_cons, ih, mem_emplace, List.map_cons, List.mem_cons, or_assoc]

theorem nodup_foldl_emplace (l : List PeerAddress) (h : (peers.map PeerAddress.address).Nodup) :
    ((l.foldl emplace peers).map PeerAddress.address).Nodup := by
  induction l generalizing peers with
  | nil => exact h
  | cons p l ih => exact ih (nodup_emplace h)

theorem mem_buildPeersListFromJson :
    a ∈ (buildPeersListFromJson root).map PeerAddress.address ↔ a ∈
      (root.filterMap parsePeer).map PeerAddress.address := by
  rw [buildPeersListFromJson, mem_foldl_emplace]
  simp

/-- A peer is saved once. -/
theorem nodup_buildPeersListFromJson (root : List Json) :
    ((buildPeersListFromJson root).map PeerAddress.address).Nodup :=
  nodup_foldl_emplace _ List.nodup_nil

/-- The same elements in another order give the same peers. -/
theorem buildPeersListFromJson_perm {root' : List Json} (h : root'.Perm root) :
    ((buildPeersListFromJson root').map PeerAddress.address).Perm
      ((buildPeersListFromJson root).map PeerAddress.address) := by
  rw [List.perm_ext_iff_of_nodup (nodup_buildPeersListFromJson root') (nodup_buildPeersListFromJson root)]
  intro a
  rw [mem_buildPeersListFromJson, mem_buildPeersListFromJson, ((h.filterMap parsePeer).map _).mem_iff]

/-! ## One swarm -/

/-- Peers of one uuid that are not ignored have one host and port. -/
def OneAddress (root : List Json) : Prop :=
  ∀ p ∈ root.filterMap parsePeer, ∀ q ∈ root.filterMap parsePeer, p.uuid = q.uuid → p.host = q.host ∧ p.port = q.port

/-- What was saved is a swarm of different uuids, and for another list it is the
same one, with the same primary in every view and the same size. -/
structure SameSwarm (s s' : PeersBeacon) : Prop where
  distinct : (s.current.map PeerAddress.uuid).Nodup
  ordered : s.ordered.map PeerAddress.address = s'.ordered.map PeerAddress.address
  primary : ∀ view : Nat, (s.ordered[view % s.ordered.length]?).map PeerAddress.address =
    (s'.ordered[view % s'.ordered.length]?).map PeerAddress.address
  size : s.current.length = s'.current.length

theorem SameSwarm.of_ordered {s s' : PeersBeacon} (hd : (s.current.map PeerAddress.uuid).Nodup)
    (h : s.ordered.map PeerAddress.address = s'.ordered.map PeerAddress.address) : SameSwarm s s' := by
  have hlen : s.ordered.length = s'.ordered.length := by
    rw [← List.length_map PeerAddress.address, h, List.length_map]
  refine ⟨hd, h, fun view => ?_, ?_⟩
  · rw [← List.getElem?_map, ← List.getElem?_map, h, hlen]
  · rw [← s.perm.length_eq, hlen, s'.perm.length_eq]

theorem switchPeersList_of_ne_nil {c : PeerContainers} {newPeers : List PeerAddress} (h : newPeers ≠ [])
    (s : PeersBeacon) :
    switchPeersList c newPeers s =
      (true, ⟨c.iterate newPeers, c.sort (c.iterate newPeers), c.sort_perm _, c.sorted _⟩) :=
  if_neg (mt List.length_eq_zero_iff.mp h)

/-- In a document of one address for each uuid the uuid tells the peer. -/
theorem OneAddress.address_eq (h : OneAddress root) {b : Uuid × Bytes × UInt16}
    (ha : a ∈ (buildPeersListFromJson root).map PeerAddress.address)
    (hb : b ∈ (buildPeersListFromJson root).map PeerAddress.address) (heq : a.1 = b.1) : a = b := by
  obtain ⟨p, hp, rfl⟩ := List.mem_map.mp (mem_buildPeersListFromJson.mp ha)
  obtain ⟨q, hq, rfl⟩ := List.mem_map.mp (mem_buildPeersListFromJson.mp hb)
  obtain ⟨hhost, hport⟩ := h p hp q hq heq
  rw [PeerAddress.address, PeerAddress.address, hhost, hport]
  exact congrArg (·, _) heq

theorem OneAddress.distinct (h : OneAddress root) (hl : l.Perm (buildPeersListFromJson root)) :
    (l.map PeerAddress.uuid).Nodup := by
  have hperm := hl.map PeerAddress.address
  have hnodup := hperm.nodup_iff.mpr (nodup_buildPeersListFromJson root)
  have : ((l.map PeerAddress.address).map Prod.fst).Nodup :=
    hnodup.map_on fun a ha b hb => h.address_eq (hperm.mem_iff.mp ha) (hperm.mem_iff.mp hb)
  rwa [List.map_map] at this

theorem OneAddress.ordered_eq (h : OneAddress root) {l' : List PeerAddress}
    (hl : (l.map PeerAddress.address).Perm ((buildPeersListFromJson root).map PeerAddress.address))
    (hl' : (l'.map PeerAddress.address).Perm ((buildPeersListFromJson root).map PeerAddress.address))
    (hs : l.Pairwise fun a b => ¬ b.uuid < a.uuid) (hs' : l'.Pairwise fun a b => ¬ b.uuid < a.uuid) :
    l.map PeerAddress.address = l'.map PeerAddress.address := by
  have hanti : ∀ a b, a ∈ l.map PeerAddress.address → b ∈ l'.map PeerAddress.address →
      ¬ b.1 < a.1 → ¬ a.1 < b.1 → a = b := fun a b ha hb hab hba =>
    h.address_eq (hl.mem_iff.mp ha) (hl'.mem_iff.mp hb) (List.le_antisymm (List.not_lt.mp hab) (List.not_lt.mp hba))
  refine (hl.trans hl'.symm).eq_of_pairwise hanti ?_ ?_
  · rw [List.pairwise_map]
    exact hs
  · rw [List.pairwise_map]
    exact hs'

/-- Any order of the elements gives the same swarm of different uuids exactly when
the peers of one uuid have one host and port. -/
theorem sameSwarm_iff (c : PeerContainers) (root : List Json) :
    (∀ root' : List Json, root'.Perm root → ∀ s s' : PeersBeacon,
      (parseAndSavePeers c root s).1 = (parseAndSavePeers c root' s').1 ∧
        ((parseAndSavePeers c root s).1 = true →
          SameSwarm (parseAndSavePeers c root s).2 (parseAndSavePeers c root' s').2)) ↔ OneAddress root := by
  constructor
  · intro h p hp q hq heq
    have hp' := mem_buildPeersListFromJson.mpr (List.mem_map_of_mem hp)
    have hq' := mem_buildPeersListFromJson.mpr (List.mem_map_of_mem hq)
    have hne : buildPeersListFromJson root ≠ [] := fun hnil => by
      rw [hnil] at hp'
      cases hp'
    have hsaved := h root (.refl root) ⟨[], [], .nil, .nil⟩ ⟨[], [], .nil, .nil⟩
    rw [parseAndSavePeers, switchPeersList_of_ne_nil hne] at hsaved
    have hperm := (c.iterate_perm (buildPeersListFromJson root)).map PeerAddress.address
    obtain ⟨p', hp', hpa⟩ := List.mem_map.mp (hperm.mem_iff.mpr hp')
    obtain ⟨q', hq', hqa⟩ := List.mem_map.mp (hperm.mem_iff.mpr hq')
    have huuid : p'.uuid = q'.uuid := (congrArg Prod.fst hpa).trans (heq.trans (congrArg Prod.fst hqa).symm)
    have haddress : p.address = q.address := by
      rw [← hpa, ← hqa, List.inj_on_of_nodup_map (hsaved.2 rfl).distinct hp' hq' huuid]
    exact ⟨congrArg (·.2.1) haddress, congrArg (·.2.2) haddress⟩
  · intro h root' hroot s s'
    have hperm := buildPeersListFromJson_perm hroot
    by_cases hne : buildPeersListFromJson root = []
    · have hne' : buildPeersListFromJson root' = [] := by
        rw [hne, List.map_nil] at hperm
        exact List.map_eq_nil_iff.mp hperm.eq_nil
      rw [parseAndSavePeers, parseAndSavePeers, hne, hne']
      exact ⟨rfl, nofun⟩
    · have hne' : buildPeersListFromJson root' ≠ [] := by
        intro hnil
        rw [hnil, List.map_nil] at hperm
        exact hne (List.map_eq_nil_iff.mp hperm.symm.eq_nil)
      rw [parseAndSavePeers, parseAndSavePeers, switchPeersList_of_ne_nil hne, switchPeersList_of_ne_nil hne']
      refine ⟨rfl, fun _ => .of_ordered (h.distinct (c.iterate_perm _)) (h.ordered_eq ?_ ?_ (c.sorted _) (c.sorted _))⟩
      · exact ((c.sort_perm _).trans (c.iterate_perm _)).map _
      · exact (((c.sort_perm _).trans (c.iterate_perm _)).map _).trans hperm

/-! ## Peers without a uuid -/

/-- A set that shows its peers in the order they were put in, and a stable sort. -/
def insertionOrder : PeerContainers where
  iterate := id
  sort l := l.insertionSort fun a b => ¬ b.uuid < a.uuid
  iterate_perm := .refl
  sort_perm l := l.perm_insertionSort _
  sorted l := by
    have : Std.Total fun a b : PeerAddress => ¬ b.uuid < a.uuid :=
      ⟨fun a b => by rw [List.not_lt, List.not_lt]; exact List.le_total _ _⟩
    have : IsTrans PeerAddress fun a b => ¬ b.uuid < a.uuid :=
      ⟨fun a b c hab hbc => List.not_lt.mpr (List.le_trans (List.not_lt.mp hab) (List.not_lt.mp hbc))⟩
    exact l.pairwise_insertionSort _

/-- A peer with a host and a port. -/
def unnamedPeer (host : String) (port : Int) : Json :=
  .object [(ascii "host", .string (ascii host)), (ascii "port", .int port)]

/-- Two peers without a uuid are both saved under `unknown`, and which comes first
depends on the document. -/
theorem swarm_of_unnamed :
    let a := unnamedPeer "peer1.com" 12345
    let b := unnamedPeer "nonamepeer.com" 54321
    let saved := parseAndSavePeers insertionOrder [a, b] ⟨[], [], .nil, .nil⟩
    let saved' := parseAndSavePeers insertionOrder [b, a] ⟨[], [], .nil, .nil⟩
    [b, a].Perm [a, b] ∧ saved.1 = true ∧ saved.2.current.map PeerAddress.uuid = [ascii "unknown", ascii "unknown"] ∧
      saved.2.ordered.map PeerAddress.host = [ascii "peer1.com", ascii "nonamepeer.com"] ∧
      saved'.2.ordered.map PeerAddress.host = [ascii "nonamepeer.com", ascii "peer1.com"] :=
  ⟨.swap .., by decide +kernel, by decide +kernel, by decide +kernel, by decide +kernel⟩

end PeersBeacon

end SwarmDb
