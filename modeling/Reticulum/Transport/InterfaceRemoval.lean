import Reticulum.Transport.AnnounceTable
import Reticulum.Transport.LinkTable
import Reticulum.Transport.PathPersist

/-!
# Removing an interface

An interface can be taken from a running node (`UnregisterInterface` in
`pkg/transport/transport.go`).  Seven tables have entries that refer to interfaces; all that refer
to the removed one have to go, the others have to stay: `unregisterInterface_sweeps`.  The paths are
dropped one by one (`dropPathEntryUnlocked`); the other tables are swept.
-/

namespace Reticulum

/-! ## Entries that refer to interfaces -/

structure DiscoveryPathRequest where
  destinationHash : Bytes
  timeout : ℕ
  requestingIface : Option ℕ
deriving DecidableEq

structure ReverseRow extends ReverseEntry where
  timestamp : ℕ
deriving DecidableEq

def PathRow.references (iface : ℕ) (row : PathRow) : Bool := row.iface == some iface

def DiscoveryPathRequest.references (iface : ℕ) (req : DiscoveryPathRequest) : Bool :=
  req.requestingIface == some iface

namespace ReverseTable

abbrev Rows := Map Bytes ReverseRow

def references (iface : ℕ) (row : ReverseRow) : Bool :=
  row.receivedIface == iface || row.outboundIface == iface

def removeEntriesReferencing (iface : ℕ) (rows : Rows) : Rows :=
  Table.keep (fun _ row => !references iface row) rows

end ReverseTable

/-! ## The node -/

/-- The tables of a node that know interfaces, and what is dropped together with a path.  A link
that ends at this node is kept with the interface it is bound to, if there is one. -/
structure RouteTables where
  interfaces : Map Bytes ℕ
  paths : Map Bytes PathRow
  pathStates : Map Bytes PathState
  announcePacketCache : Map Bytes AnnouncePacket
  discoveryPathRequests : Map Bytes DiscoveryPathRequest
  announceTable : Map Bytes PathAnnounceEntry
  heldAnnounces : Map Bytes PathAnnounceEntry
  pendingLocalPathReqs : Map Bytes ℕ
  linkTable : LinkTable.Rows
  reverseTable : ReverseTable.Rows
  links : Map Bytes (Option ℕ)

namespace RouteTables

def dropPathEntryUnlocked (t : RouteTables) (key : Bytes) : RouteTables :=
  { t with
    paths := t.paths.erase key
    pathStates := t.pathStates.erase key
    announcePacketCache := t.announcePacketCache.erase (hash16FromSlice key) }

def dropPathsReferencing (iface : ℕ) (t : RouteTables) : RouteTables :=
  t.paths.entries.foldl
    (fun t s => if s.2.references iface then t.dropPathEntryUnlocked s.1 else t) t

def invalidateInterfaceReferencesLocked (iface : ℕ) (t : RouteTables) : RouteTables :=
  let t := t.dropPathsReferencing iface
  { t with
    discoveryPathRequests :=
      Table.keep (fun _ req => !req.references iface) t.discoveryPathRequests
    announceTable := Table.keep (fun _ entry => !entry.references iface) t.announceTable
    heldAnnounces := Table.keep (fun _ entry => !entry.references iface) t.heldAnnounces
    pendingLocalPathReqs := Table.keep (fun _ reqIface => !(reqIface == iface))
      t.pendingLocalPathReqs
    linkTable := LinkTable.removeEntriesReferencing iface t.linkTable
    reverseTable := ReverseTable.removeEntriesReferencing iface t.reverseTable
    links := Table.keep (fun _ ni => !(ni == some iface)) t.links }

def unregisterInterface (t : RouteTables) (name : Bytes) : RouteTables :=
  match t.interfaces.lookup name with
  | none => t
  | some iface =>
    let t := t.invalidateInterfaceReferencesLocked iface
    { t with interfaces := t.interfaces.erase name }

/-! ## What is left -/

structure Forgotten (iface : ℕ) (t t' : RouteTables) : Prop where
  paths : Table.Swept (PathRow.references iface) t.paths t'.paths
  discoveryPathRequests : Table.Swept (DiscoveryPathRequest.references iface)
    t.discoveryPathRequests t'.discoveryPathRequests
  announceTable : Table.Swept (PathAnnounceEntry.references iface) t.announceTable t'.announceTable
  heldAnnounces : Table.Swept (PathAnnounceEntry.references iface) t.heldAnnounces t'.heldAnnounces
  pendingLocalPathReqs : Table.Swept (· == iface) t.pendingLocalPathReqs t'.pendingLocalPathReqs
  linkTable : Table.Swept (LinkTable.references iface) t.linkTable t'.linkTable
  reverseTable : Table.Swept (ReverseTable.references iface) t.reverseTable t'.reverseTable

section

variable {t : RouteTables} {iface : ℕ} {name : Bytes}

lemma foldl_drop (t : RouteTables) (keys : List Bytes) :
    keys.foldl dropPathEntryUnlocked t =
      { t with
        paths := Table.eraseAll t.paths keys
        pathStates := Table.eraseAll t.pathStates keys
        announcePacketCache :=
          Table.eraseAll t.announcePacketCache (keys.map hash16FromSlice) } := by
  induction keys generalizing t with
  | nil => rfl
  | cons key keys ih =>
    rw [List.foldl_cons, ih]
    rfl

lemma dropPathsReferencing_eq (iface : ℕ) (t : RouteTables) :
    t.dropPathsReferencing iface =
      ((t.paths.entries.filter fun s => s.2.references iface).map Sigma.fst).foldl
        dropPathEntryUnlocked t := by
  rw [dropPathsReferencing, List.foldl_map, List.foldl_filter]

/-- **The sweep** forgets the interface in all tables. -/
lemma forgotten_invalidate (iface : ℕ) (t : RouteTables) :
    Forgotten iface t (t.invalidateInterfaceReferencesLocked iface) := by
  rw [invalidateInterfaceReferencesLocked, dropPathsReferencing_eq, foldl_drop]
  exact
    { paths := Table.swept_eraseAll _ _
      discoveryPathRequests := Table.swept_keep _ _
      announceTable := Table.swept_keep _ _
      heldAnnounces := Table.swept_keep _ _
      pendingLocalPathReqs := Table.swept_keep _ _
      linkTable := Table.swept_keep _ _
      reverseTable := Table.swept_keep _ _ }

/-- **Removing an interface leaves no dangling route.**  After `UnregisterInterface` no entry of the
seven tables refers to the interface, every entry that did not is unchanged, and the name is free.
-/
theorem unregisterInterface_sweeps (t : RouteTables) (name : Bytes) (iface : ℕ)
    (h : t.interfaces.lookup name = some iface) :
    Forgotten iface t (t.unregisterInterface name) ∧
      (t.unregisterInterface name).interfaces.lookup name = none := by
  have hsweep := forgotten_invalidate iface t
  rw [unregisterInterface, h]
  refine ⟨{ hsweep with }, ?_⟩
  exact AList.lookup_erase _ _

def twoInterfaces : RouteTables where
  interfaces := (AList.singleton [0x61] 7).insert [0x62] 8
  paths := (AList.singleton (pathMapKey [1]) (PathRecord.path ⟨[1], [2], 1, [], 5⟩ 7)).insert
    (pathMapKey [3]) (PathRecord.path ⟨[3], [4], 1, [], 5⟩ 8)
  pathStates := ∅
  announcePacketCache := ∅
  discoveryPathRequests := ∅
  announceTable := ∅
  heldAnnounces := ∅
  pendingLocalPathReqs := .singleton [9] 8
  linkTable := .singleton [5] ⟨⟨8, 7, 1, 1, [6], true, 5⟩, [2], 9⟩
  reverseTable := ∅
  links := ∅

/-- The second interface is removed: the path on the first one stays, the link goes. -/
theorem twoInterfaces_sweeps :
    twoInterfaces.interfaces.lookup [0x62] = some 8 ∧
      Forgotten 8 twoInterfaces (twoInterfaces.unregisterInterface [0x62]) ∧
      ((twoInterfaces.unregisterInterface [0x62]).paths.lookup (pathMapKey [1])).isSome = true ∧
      (twoInterfaces.unregisterInterface [0x62]).paths.lookup (pathMapKey [3]) = none ∧
      (twoInterfaces.unregisterInterface [0x62]).linkTable.lookup [5] = none := by
  have h : twoInterfaces.interfaces.lookup [0x62] = some 8 := by decide
  have hsweep := (unregisterInterface_sweeps twoInterfaces [0x62] 8 h).1
  refine ⟨h, hsweep, by decide +kernel, ?_, by decide +kernel⟩
  rw [Option.eq_none_iff_forall_ne_some]
  intro row hrow
  have hpath := (hsweep.paths (pathMapKey [3]) row).1 hrow
  rw [← Option.some.inj hpath.1] at hpath
  exact absurd hpath.2 (by decide)

end

end RouteTables

end Reticulum
