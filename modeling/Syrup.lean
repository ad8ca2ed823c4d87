import Syrup.Client.GainItem.Exact
import Syrup.Client.Resume.Balanced
import Syrup.Client.Replica.Gains
import Syrup.Client.Save.Pickups
import Syrup.Client.Save.RoundTrip
import Syrup.Client.Equip.Bonuses
import Syrup.Client.WellStacked
import Syrup.Client.FirstProjectile.Run
import Syrup.Server.Registry
import Syrup.Server.Logouts
import Syrup.Server.Seats
import Syrup.Packets.Link
import Syrup.Packets.Readers
import Syrup.Login.SessionList
import Syrup.Login.Authority
import Syrup.Login.Handover.Phases
import Syrup.Login.DatabaseLock.Run
import Syrup.Online.Run
import Syrup.Map.ControllerHeap.Spec
import Syrup.Client.StatCopy
import Syrup.Footholds.Find
import Syrup.Server.UserEvents.Teardown
import Syrup.Server.UserEvents.SaveLock
import Syrup.Database.Saves.Kept
import Syrup.Wz.Items.Story
import Syrup.Wz.Maps.Told
import Syrup.Login.CreateCharacter
import Syrup.Client.Party.Run
import Syrup.Client.Scripts.Run
import Syrup.Server.Timers.Run
import Syrup.Client.Stats.Mesos
import Syrup.Client.Stats.Levels
import Syrup.Encoders.Sections
import Syrup.Client.QuestInfos.Run
import Syrup.Packets.Movement.Relay
import Syrup.Wz.Portals.Leads
import Syrup.Wz.Reactors.Directory
import Syrup.Map.Damage.HitPoints
import Syrup.Map.Places.Spawners
import Syrup.Client.RangedAttack.Consumed
import Syrup.Map.Drops.Rolls
import Syrup.Client.RegainQuestItem
import Syrup.Client.QuestRequirements
import Syrup.Map.PickUpAll.Tried
import Syrup.Infos
import Syrup.Map.Transports
