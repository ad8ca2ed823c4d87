import Syrup.Exec
import Syrup.Lib.BackLinks
import Syrup.Lib.Run

/-!
# Who is on which map

A client is in a room from its transfer on, but on the map of the room only when it has told that the
transfer is complete: then it has an entry in the array of the players of the map, to which
`client->map.player` points. It leaves the map when it is warped, before it has left the room, or when it
disconnects; the last entry of the array takes the place of its entry. Packets that have been received are
still handled when a change of the room has been started.

Here is what the handlers of the packets do with the entries of the players. Of the monsters, drops, reactors
and scripts there is only whether a handler gets as far as to use the entry of its client, and where the client
is warped.
-/

namespace Syrup

/-- An address of an entry: a map, by its room, and an index into its array of players. -/
abbrev PlayerEntry := ℕ × ℕ

/-- A client in a room: `session->room`, `session->targetRoom` if it is to change its room, and
    `client->map.player`. -/
structure MapClient where
  room : ℕ
  target : Option ℕ
  player : Option PlayerEntry
  deriving DecidableEq

/-- The arrays of players, by the clients of their entries, and the clients. -/
structure MapWorld where
  players : ℕ → List ℕ
  client : ℕ → Option MapClient

namespace MapWorld

/-- Nobody is there. -/
def start : MapWorld := ⟨fun _ => [], fun _ => none⟩

section Functions

variable (w : MapWorld) (n r : ℕ)

/-- A client is written to. -/
def modify (f : MapClient → MapClient) : Exec MapWorld := do
  let s ← Exec.deref (w.client n)
  return { w with client := Function.update w.client n (some (f s)) }

/-- The entry of a client is used as one of this map: it must be there and be that of the client. -/
def entry (player : Option PlayerEntry) : Exec ℕ := do
  let p ← Exec.deref player
  if p.1 = r ∧ (w.players r)[p.2]? = some n then return p.2 else .error .outOfBounds

/-! ## Joining and leaving -/

/-- What comes of `map_join`, for a map that is not left at once because of a ship: the array cannot be made
    larger; there is no memory afterwards; or the client joins. -/
inductive JoinOutcome
  | full
  | noMemory
  | joins
  deriving DecidableEq

/-- The array of players has been moved: everybody is told his address. -/
def readdress : Exec MapWorld :=
  (List.range (w.players r).length).foldlM (fun w i => do
    let m ← Exec.deref (w.players r)[i]?
    w.modify m fun s => { s with player := some (r, i) }) w

/-- The array of players is made larger, if it has to be. -/
def grow (grows : Bool) : Exec MapWorld := if grows then w.readdress r else return w

/-- `map_join`, and whether the array of players has to be made larger. The address is written before it is
    known that there is memory. -/
def mapJoin (grows : Bool) (outcome : JoinOutcome) : Exec MapWorld :=
  match outcome with
  | .full => return w
  | _ => do
    let w ← w.grow r grows
    let w ← w.modify n fun s => { s with player := some (r, (w.players r).length) }
    match outcome with
    | .joins => return { w with players := Function.update w.players r (w.players r ++ [n]) }
    | _ => return w

/-- `map_leave`. -/
def mapLeave (player : Option PlayerEntry) : Exec MapWorld :=
  match player with
  | none => return w
  | some p => do
    let i ← w.entry n r (some p)
    let last ← Exec.last (w.players r).length
    if i ≠ last then
      let m ← Exec.deref (w.players r)[last]?
      let w := { w with players := Function.update w.players r ((w.players r).set i m).dropLast }
      w.modify m fun s => { s with player := some (r, i) }
    else return { w with players := Function.update w.players r (w.players r).dropLast }

/-- `client_warp`. -/
def clientWarp (target : ℕ) : Exec MapWorld := do
  let s ← Exec.deref (w.client n)
  let w ← w.mapLeave n s.room s.player
  w.modify n fun s => { s with player := none, target := some target }

/-- The warps of a script. -/
def warps (targets : List ℕ) : Exec MapWorld := targets.foldlM (fun w target => w.clientWarp n target) w

/-- `client_logout_start`, and the client is destroyed. -/
def logoutStart : Exec MapWorld := do
  let s ← Exec.deref (w.client n)
  let w ← w.mapLeave n s.room s.player
  return { w with client := Function.update w.client n none }

/-- `start_sailing`, `end_sailing` and their like: whoever is first is warped until nobody is there. The first
    argument bounds the loop. -/
def sail (target : ℕ) : ℕ → MapWorld → Exec MapWorld
  | 0, w => if w.players r = [] then return w else .error .divergence
  | k + 1, w =>
    match w.players r with
    | [] => return w
    | m :: _ => do sail target k (← w.clientWarp m target)

end Functions

end MapWorld

/-! ## Packets -/

/-- A command in the chat: `!autopickup`, and whether it is enabled now; `!killall`, and whether there is
    a monster that is alive; `!map`, and whether there is such a map; or another text. -/
inductive ChatCommand
  | autopickup (enabled : Bool)
  | killall (alive : Bool)
  | map (target : Option ℕ)
  | other

/-- A packet, with what its handler finds: `RECEIVE_OPCODE_PORTAL`, and where the portal leads to;
    `RECEIVE_OPCODE_ATTACK`, `RANGED_ATTACK` or `MAGIC_ATTACK`, whether the client is kicked for its
    skill, and for every object that is hit whether it is a monster that is alive; `RECEIVE_OPCODE_CHAT`;
    `RECEIVE_OPCODE_NPC_TALK`, `DIALOGUE`, `SCRIPTED_PORTAL` or `QUEST_ACTION`, and where the script
    warps the client; `RECEIVE_OPCODE_ITEM_MOVE` or `MESO_DROP`, and whether something is dropped;
    `RECEIVE_OPCODE_PICKUP`, and whether there is the drop; `RECEIVE_OPCODE_REACTOR_HIT`, and whether the
    reactor breaks; `RECEIVE_OPCODE_MAP_TRANSFER_COMPLETE`, where a ship takes the client, and what comes of
    `map_join`. All `other` packets have nothing to do with the entry, but for a test whether there is
    one. -/
inductive MapPacket
  | portal (target : Option ℕ)
  | attack (kicked : Bool) (alive : List Bool)
  | chat (command : ChatCommand)
  | npcTalk (targets : List ℕ)
  | script (targets : List ℕ)
  | itemMove (drops : Bool)
  | mesoDrop (drops : Bool)
  | pickup (found : Bool)
  | reactorHit (breaks : Bool) (targets : List ℕ)
  | mapTransferComplete (ship : Option ℕ) (grows : Bool) (outcome : MapWorld.JoinOutcome)
      (targets : List ℕ)
  | other

namespace MapWorld

variable (w : MapWorld) (n : ℕ)

/-- A function of the map uses the entry of the client, if it gets that far: `map_damage_monster_by`,
    `map_pick_up_all`, `map_kill_all_by`, `map_add_player_drop`, `map_player_can_pick_up_drop` or
    `map_hit_reactor`. -/
def useEntry (s : MapClient) (uses : Bool) : Exec Unit :=
  if uses then do
    let _ ← w.entry n s.room s.player
  else return ()

/-- `on_client_packet`. -/
def onClientPacket (s : MapClient) : MapPacket → Exec MapWorld
  | .portal target => w.warps n target.toList
  | .attack kicked alive =>
    if kicked then return w
    else do
      alive.forM (w.useEntry n s ·)
      return w
  | .chat (.autopickup enabled) => do
    w.useEntry n s enabled
    return w
  | .chat (.killall alive) => do
    w.useEntry n s alive
    return w
  | .chat (.map target) => w.warps n target.toList
  | .chat .other => return w
  | .npcTalk targets => if s.player = none then return w else w.warps n targets
  | .script targets => w.warps n targets
  | .itemMove drops | .mesoDrop drops => do
    w.useEntry n s drops
    return w
  | .pickup found => do
    w.useEntry n s found
    return w
  | .reactorHit breaks targets =>
    if breaks then do
      w.useEntry n s true
      w.warps n targets
    else return w
  | .mapTransferComplete ship grows outcome targets =>
    match ship with
    | some target => w.clientWarp n target
    | none => do
      let w ← w.mapJoin n s.room grows outcome
      w.warps n targets
  | .other => return w

end MapWorld

/-! ## What happens -/

/-- What happens: a client enters its first room; it sends a packet; it arrives in the room to which it is
    transferred; a command of it has been received by another client (`client_notify_command_received`);
    a ship sails; the client disconnects, or is kicked. -/
inductive WorldAction
  | enter (n r : ℕ)
  | packet (n : ℕ) (p : MapPacket)
  | arrive (n : ℕ)
  | notify (n : ℕ)
  | sail (r target : ℕ)
  | disconnect (n : ℕ)

/-- The world after it. -/
def WorldAction.step (a : WorldAction) (w : MapWorld) : Exec MapWorld :=
  match a with
  | enter n r =>
    match w.client n with
    | none => return { w with client := Function.update w.client n (some ⟨r, none, none⟩) }
    | some _ => return w
  | packet n p =>
    match w.client n with
    | none => return w
    | some s => w.onClientPacket n s p
  | arrive n =>
    match w.client n with
    | none => return w
    | some s =>
      match s.target with
      | none => return w
      | some target => w.modify n fun s => { s with room := target, target := none }
  | notify n =>
    match w.client n with
    | none => return w
    | some s => w.warps n (s.target.toList.filter (· ≠ s.room))
  | sail r target => MapWorld.sail r target (w.players r).length w
  | disconnect n =>
    match w.client n with
    | none => return w
    | some _ => w.logoutStart n

end Syrup
