import ControlPlane.Config.Form
import ControlPlane.Proofs.State.Form

/-!
# ControlPlane.Proofs.Config.Form

Settings are read back from JSON: the forms of peers, of the intervals of the consensus protocol and
of all settings of a node are lawful.  Their text names every setting, so no default is taken.
-/

namespace ControlPlane

open Json

instance : LawfulForm Peer where
  ofJson?_toJson p := by
    show (do
      return Peer.mk (← ofJson? (toJson p.nodeId)) (← ofJson? (toJson p.addr))
        (← ofJson? (toJson p.isVoter))) = some p
    simp
  reads _ := Reads.record (by decide) (.cons (reads _) (.cons (reads _) (.cons (reads _) .nil)))

instance : LawfulForm Timing where
  ofJson?_toJson t := by
    show (do
      return Timing.mk (← ofJson? (toJson t.heartbeatIntervalMs))
        (← ofJson? (toJson t.electionTimeoutMinMs))
        (← ofJson? (toJson t.electionTimeoutMaxMs))) = some t
    simp
  reads _ := Reads.record (by decide) (.cons (reads _) (.cons (reads _) (.cons (reads _) .nil)))

instance : LawfulForm Config where
  ofJson?_toJson c := by
    show (do
      return Config.mk (← ofJson? (toJson c.nodeId)) (← ofJson? (toJson c.hostname))
        (← ofJson? (toJson c.bindAddr)) (← ofJson? (toJson c.bindPort))
        (← ofJson? (toJson c.advertiseAddr)) (← ofJson? (toJson c.dataDir))
        (← ofJson? (toJson c.peers)) (← ofJson? (toJson c.bootstrap)) (← ofJson? (toJson c.raft))
        (← ofJson? (toJson c.onDecodeError)) (← ofJson? (toJson c.statusIntervalSecs))) = some c
    simp
  reads _ := Reads.record (by decide)
    (.cons (reads _) <| .cons (reads _) <| .cons (reads _) <| .cons (reads _) <|
      .cons (reads _) <| .cons (reads _) <| .cons (reads _) <| .cons (reads _) <|
      .cons (reads _) <| .cons (reads _) <| .cons (reads _) .nil)

end ControlPlane
