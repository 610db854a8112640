import OperationFrontLine.Zones.Earning

/-!
# Destroyed flags

`DestroyFlagZone` marks a flag, and `ReDeployFlagZone` takes the mark away when it puts the
flag back on the field.  The other way back, to pick the flag up and to plant it, leaves
the mark on a flag that is in play.
-/

namespace OperationFrontLine.Zones

open OperationFrontLine.Library

variable {Flag : Type}

def FlagZone.OutOfPlay (zone : FlagZone) : Prop :=
  zone.destroyed → zone.activated = false

theorem FlagZone.OutOfPlay.change {settings : Settings Flag} {now : ℚ} {zone after : FlagZone}
    (out : zone.OutOfPlay) (change : Change settings now zone after) : after.OutOfPlay := by
  cases change with
  | tracked | shown | scanned | setBack | readied => exact out
  | pickedUp | destroyed => exact fun _ => rfl
  | moved => exact fun destroyed => by cases destroyed

/-- A flag that is put down is out of play when it was not marked, or went back to its base. -/
theorem FlagZone.outOfPlay_putDown (zone : FlagZone) (now : ℚ) (script : Script) (sentBack : Bool)
    (place : Placement) (visualState : VisualState) :
    (zone.putDown now script sentBack place visualState).OutOfPlay ↔
      (zone.destroyed → sentBack) := by
  simp [OutOfPlay, putDown]

section Runs

variable [DecidableEq Flag] {settings : Settings Flag} {server after : Server Flag}
  {event : Event Flag}

/-- The step plants on the field a flag that was picked up after its destruction. -/
def PlantsDestroyed (settings : Settings Flag) (server : Server Flag) (event : Event Flag) :
    Prop :=
  ∃ deployment, server.deployment settings event = some deployment ∧
    (server.zones.zone deployment.flag).destroyed ∧ deployment.sentBack = false

/-- From a state in which destroyed flags are out of play, a step keeps them out exactly
when it plants none of them. -/
theorem outOfPlay_step_iff (orderly : server.Orderly)
    (out : ∀ flag, (server.zones.zone flag).OutOfPlay)
    (stepped : step settings server event = some after) :
    (∀ flag, (after.zones.zone flag).OutOfPlay) ↔ ¬PlantsDestroyed settings server event := by
  cases deploys : server.deployment settings event with
  | none =>
      refine iff_of_true (fun flag => ?_) ?_
      · have changes := (step_changed orderly stepped deploys).2.zone flag
        exact changes.invariant (fun _ _ => FlagZone.OutOfPlay.change) (out flag)
      · rintro ⟨deployment, isDeployment, -⟩
        cases deploys.symm.trans isDeployment
  | some deployment =>
      obtain ⟨-, -, -, place, visualState, updated⟩ := step_deployed stepped deploys
      rw [updated]
      have others : (∀ flag, (Function.update server.zones.zone deployment.flag
          ((server.zones.zone deployment.flag).putDown after.zones.now server.zones.nextScript
            deployment.sentBack place visualState) flag).OutOfPlay) ↔
          ((server.zones.zone deployment.flag).destroyed → deployment.sentBack) := by
        rw [Function.forall_update_iff _ fun _ zone => FlagZone.OutOfPlay zone,
          FlagZone.outOfPlay_putDown]
        exact and_iff_left fun flag _ => out flag
      rw [others]
      constructor
      · rintro sent ⟨other, isDeployment, destroyed, stays⟩
        cases deploys.symm.trans isDeployment
        exact absurd ((sent destroyed).symm.trans stays) (by simp)
      · intro plants destroyed
        by_contra stays
        exact plants ⟨deployment, deploys, destroyed, Bool.eq_false_iff.mpr stays⟩

/-- Destroyed flags are out of play at first, and in every later state of a run if and only
if no step of the run plants one of them on the field. -/
theorem destroyed_out_of_play_iff (rnkOn : Bool) (matchStartTime : ℚ)
    (bunkerPoint : Flag → Position) (events : List (Event Flag)) :
    (∀ flag, ((Server.start settings rnkOn matchStartTime bunkerPoint).zones.zone
        flag).OutOfPlay) ∧
      (Along (step settings)
          (fun _ _ after => ∀ flag, (after.zones.zone flag).OutOfPlay)
          (.start settings rnkOn matchStartTime bunkerPoint) events ↔
        Along (step settings) (fun before event _ => ¬PlantsDestroyed settings before event)
          (.start settings rnkOn matchStartTime bunkerPoint) events) := by
  have initial (flag : Flag) : ((Server.start settings rnkOn matchStartTime
      bunkerPoint).zones.zone flag).OutOfPlay := fun destroyed => by cases destroyed
  refine ⟨initial, ?_⟩
  refine @along_iff_of_invariant _ _ (step settings)
    (fun server => server.Orderly ∧ ∀ flag, (server.zones.zone flag).OutOfPlay) _ _
    (fun before event after inv plants stepped => ⟨orderly_step inv.1 stepped, ?_⟩)
    (fun before event after inv stepped => outOfPlay_step_iff inv.1 inv.2 stepped)
    _ ⟨(Server.sound_start rnkOn matchStartTime bunkerPoint).orderly, initial⟩ events
  exact (outOfPlay_step_iff inv.1 inv.2 stepped).mpr plants

end Runs

def stormed : World :=
  { quiet (fun _ => true) (altisBunker .west) with
    unitsInZone := fun side => if side = .east then 1 else 0 }

/-- A frame in which the western flag is scanned under attack. -/
def stormFrame (time : ℚ) : List (Event Side) :=
  [.frame time stormed, .look time, .visit time stormed,
    .visit time (quiet (fun _ => true) (altisBunker .west))]

/-- The western flag is destroyed after a minute, picked up when it is ready again, and
planted ten metres further. -/
def plantDestroyed : List (Event Side) :=
  ((List.range 121).flatMap fun scan => stormFrame (scan / 2)) ++
    quietFrame 200 (quiet (fun _ => true) (altisBunker .west)) ++
    .receive (quiet (fun _ => true) (altisBunker .west))
        (.undeploy .west (some 1) (altisBunker .west) true) ::
      commandFrame 201 (quiet (fun _ => true) (altisBunker .west)) ++
    .receive (quiet (fun _ => true) (altisBunker .west))
        (.deploy .west (some 1) ⟨0, 60, 0⟩ true false) ::
      commandFrame 202 (quiet (fun _ => true) (altisBunker .west))

/-- The flag is in play and still marked as destroyed. -/
theorem destroyed_in_play :
    ∃ server, run (step altis) (.start altis true 0 altisBunker) plantDestroyed = some server ∧
      (server.zones.zone .west).destroyed ∧ (server.zones.zone .west).activated := by
  have ran : ((run (step altis) (.start altis true 0 altisBunker) plantDestroyed).map fun server =>
      ((server.zones.zone .west).destroyed, (server.zones.zone .west).activated)) =
      some (true, true) := by
    decide +kernel
  obtain ⟨server, ended, values⟩ := Option.map_eq_some_iff.mp ran
  simp only [Prod.mk.injEq] at values
  exact ⟨server, ended, values⟩

end OperationFrontLine.Zones
