import Syrup.Exec
import Syrup.Wz.Maps

/-!
# Portals: `RECEIVE_OPCODE_PORTAL`

A client that steps into a portal sends its name. The map that it leads to and the number of the portal
that it leads to there are looked up one after the other, by `wz_get_target_map` and `wz_get_target_portal`,
each of which goes through the portals of the map for itself.

The maps are found by a perfect hash of their ids (`cmph_search`), which is a parameter: it finds the maps
that there are (`Finds`), but yields some number for any other id.
-/

namespace Syrup

/-- `struct MapInfo`, as far as portals need it. -/
structure MapPortals where
  id : UInt32
  returnMap : UInt32
  forcedReturn : UInt32
  portals : List PortalInfo

/-- `MAP_INFOS`, and `cmph_search` in `MAP_INFO_MPH`. -/
structure PortalData where
  maps : List MapPortals
  cmphSearch : UInt32 → ℕ

namespace PortalData

variable (data : PortalData)

/-- `MAP_INFOS[cmph_search(MAP_INFO_MPH, &id, sizeof(uint32_t))]`. -/
def mapInfo (id : UInt32) : Exec MapPortals :=
  match data.maps[data.cmphSearch id]? with
  | none => .error .outOfBounds
  | some m => .ok m

/-- `wz_get_portal_info`. -/
def wzGetPortalInfo (id : UInt32) (pid : UInt8) : Exec (Option PortalInfo) := do
  let m ← data.mapInfo id
  return if m.id ≠ id then none else m.portals[pid.toNat]?

/-- `wz_get_map_forced_return`. -/
def wzGetMapForcedReturn (id : UInt32) : Exec UInt32 := do
  let m ← data.mapInfo id
  return if m.forcedReturn ≠ -1 then m.forcedReturn else id

variable {data} {m : MapPortals} {id : UInt32}

end PortalData

end Syrup
