import LinkBulker.Backend.Results
import LinkBulker.Worker.Telling

/-! What is published is never read: runs that differ in the publishes that fail differ in nothing
but the events on the channels. -/

namespace LinkBulker.Dispatch

open Foundations Db Shared SingleLink Worker

variable {newURL : UrlParser} {clock : Sheets.LocalClock}

def Label.losing (lost : Bool) : Label newURL → Label newURL
  | .work i a => .work i (a.losing lost)
  | .check j t => .check j (t.losing lost)
  | l => l

def State.say (s : State) (ps : List ProgressEvent) : State := { s with world := s.world.say ps }

def State.told (s : State) : Label newURL → Option ProgressEvent
  | .work i a => (s.checks[i]?).bind fun c => c.told a
  | .check j _ => (s.singles[j]?).bind ProcessOne.told
  | _ => none

theorem Request.move_say (s : State) (r : Request) (ps : List ProgressEvent) (now : ℤ) :
    r.move (s.say ps) now = (r.move s now).map fun x => (x.1.say ps, x.2) := by
  cases r with
  | startManualCheck r =>
    have hsame : r.move (s.world.say ps) s.manualQueue now = r.move s.world s.manualQueue now := rfl
    simp only [move, State.say, hsame, Option.map_map]
    rfl
  | recheckOne r =>
    have hsame : isLocked (s.world.say ps) r now = isLocked s.world r now := rfl
    simp only [move, State.say, hsame, Option.map_map]
    rfl
  | runNow r =>
    have hsame : r.move (s.world.say ps) s.sheetsQueue now = r.move s.world s.sheetsQueue now := rfl
    simp only [move, State.say, hsame, Option.map_map]
    rfl

theorem State.move_say (clock : Sheets.LocalClock) (s : State) (l : Label newURL)
    (ps : List ProgressEvent) (lost : Bool) :
    (s.say ps).move clock (l.losing lost) = (s.move clock l).map fun s' =>
      s'.say (ps ++ if lost then [] else (s.told l).toList) := by
  have hquiet : (ps ++ if lost then [] else (none : Option ProgressEvent).toList) = ps := by
    cases lost <;> exact List.append_nil ps
  cases l with
  | work i a =>
    simp only [move, Label.losing, State.say, told]
    rw [Pool.step_map (f := fun w => w.say (ps ++ if lost then [] else
      ((s.checks[i]?).bind fun c => c.told a).toList)), Option.map_map, Option.map_map]
    · rfl
    · intro c hc
      rw [Option.mem_def.mp hc]
      exact c.move_say s.world ps a lost
  | check j t =>
    simp only [move, Label.losing, State.say, told]
    rw [Pool.step_map (f := fun w => w.say (ps ++ if lost then [] else
      ((s.singles[j]?).bind ProcessOne.told).toList)), Option.map_map, Option.map_map]
    · rfl
    · intro c hc
      rw [Option.mem_def.mp hc]
      exact c.move_say s.world ps t lost
  | serve i now =>
    have hstep := Pool.step_map (f := fun s' : State => s'.say ps) (i := i)
      fun r (_ : r ∈ s.requests[i]?) => r.move_say s ps now
    simp only [told, hquiet]
    simp only [move, Label.losing]
    rw [show (s.say ps).requests = s.requests from rfl, hstep, Option.map_map, Option.map_map]
    rfl
  | createManualLinks cuid userId projectId dto =>
    simp only [move, Label.losing, told, hquiet, State.say, World.say]
    cases LinksService.createManualLinks newURL cuid s.world.db userId projectId dto <;> rfl
  | takeManual =>
    simp only [move, Label.losing, told, hquiet, State.say]
    cases s.manualQueue[s.manualTaken]? <;> rfl
  | takeSheets =>
    simp only [move, Label.losing, told, hquiet, State.say]
    cases s.sheetsQueue[s.sheetsTaken]? <;> rfl
  | takeSingle =>
    simp only [move, Label.losing, told, hquiet, State.say]
    cases s.singleLinkQueue[s.singles.length]? <;> rfl
  | ask a | delete r | schedule sheetsTaskId =>
    simp only [move, Label.losing, told, hquiet]
    rfl

theorem Label.now_losing (l : Label newURL) (lost : Bool) (time : ℤ) :
    (l.losing lost).now time = l.now time := by
  cases l with
  | work i a => cases a with
    | manual a | sheets a => cases a <;> rfl
  | _ => rfl

end LinkBulker.Dispatch

namespace LinkBulker.Backend

open Foundations Db Shared SingleLink Worker
open ProjectLock (Act Check)

variable {newURL : UrlParser} {clock : Sheets.LocalClock} {db : Database}
  {locks : String → LockManager.Key} {time : ℤ} {labels labels' : List (Label newURL)}
  {s s' : State newURL}

def Label.losing (lost : Bool) : Label newURL → Label newURL
  | .dispatch l => .dispatch (l.losing lost)
  | l => l

def State.say (s : State newURL) (ps : List ProgressEvent) : State newURL :=
  { s with toState := s.toState.say ps }

def State.told (s : State newURL) : Label newURL → Option ProgressEvent
  | .dispatch l => s.toState.told l
  | _ => none

theorem checkDraws_losing (c : Check) (a : Act) (lost : Bool) :
    checkDraws c (a.losing lost) = checkDraws c a := by
  cases c with
  | manual h => rfl
  | sheets c =>
    cases c with
    | body r =>
      cases a with
      | manual a => rfl
      | sheets a => cases a <;> rfl
    | find sheetsTaskId | missing => rfl

theorem draws_losing (l : Label newURL) (ps : List ProgressEvent) (lost : Bool) :
    (s.say ps).draws (l.losing lost) = s.draws l := by
  cases l with
  | dispatch l =>
    cases l with
    | work i a =>
      simp only [Label.losing, Dispatch.Label.losing, State.draws, checkDraws_losing]
      rfl
    | _ => rfl
  | _ => rfl

theorem State.move_say (s : State newURL) (l : Label newURL) (ps : List ProgressEvent)
    (lost : Bool) :
    (s.say ps).move clock (l.losing lost) = (s.move clock l).map fun s' =>
      s'.say (ps ++ if lost then [] else (s.told l).toList) := by
  have hquiet : (ps ++ if lost then [] else (none : Option ProgressEvent).toList) = ps := by
    cases lost <;> exact List.append_nil ps
  cases l with
  | dispatch l =>
    have hallows : (s.say ps).allows (l.losing lost) = s.allows l := by cases l <;> rfl
    simp only [move, Label.losing, hallows, Dispatch.Label.now_losing]
    apply ite_eq_map
    · rw [Option.map_map]
      have hmove := Dispatch.State.move_say clock
        (s.toState.at_ (l.now s.world.clock)) l ps lost
      exact (congrArg (Option.map _) hmove).trans (by rw [Option.map_map]; rfl)
    · rfl
  | row userId op | task op =>
    simp only [told, hquiet]
    rfl
  | serveRow i cuid =>
    simp only [move, Label.losing, told, hquiet, Option.map_map]
    rfl
  | serveTask i t =>
    simp only [move, Label.losing, told, hquiet, Option.map_map]
    rfl

theorem Label.now_losing (l : Label newURL) (lost : Bool) (time : ℤ) :
    (l.losing lost).now time = l.now time := by
  cases l with
  | dispatch l => exact l.now_losing lost time
  | _ => rfl

theorem step_say (clock : Sheets.LocalClock) (s : State newURL) (l : Label newURL)
    (ps : List ProgressEvent) (lost : Bool) :
    step clock (s.say ps) (l.losing lost) = (step clock s l).map fun s' =>
      s'.say (ps ++ if lost then [] else (s.told l).toList) := by
  simp only [step, Label.now_losing, draws_losing, State.move_say]
  apply ite_eq_map
  · rw [Option.map_map, Option.map_map]
    rfl
  · rfl

def Label.lost : Label newURL → Bool
  | .dispatch (.work _ a) => a.turn.lost
  | .dispatch (.check _ t) => t.lost
  | _ => false

theorem Label.losing_lost (l : Label newURL) : l.losing l.lost = l := by
  cases l with
  | dispatch l =>
    cases l with
    | work i a =>
      cases a with
      | manual a | sheets a => cases a <;> rfl
    | _ => rfl
  | _ => rfl

theorem Label.losing_losing (l : Label newURL) (lost lost' : Bool) :
    (l.losing lost).losing lost' = l.losing lost' := by
  cases l with
  | dispatch l =>
    cases l with
    | work i a =>
      cases a with
      | manual a | sheets a => cases a <;> rfl
    | _ => rfl
  | _ => rfl

theorem told_losing (s : State newURL) (l : Label newURL) (lost : Bool) :
    s.told (l.losing lost) = s.told l := by
  cases l with
  | dispatch l =>
    cases l with
    | work i a =>
      have hcheck (c : Check) : c.told (a.losing lost) = c.told a := by
        cases c with
        | manual h =>
          cases a with
          | manual a => cases a <;> rfl
          | sheets a => rfl
        | sheets c =>
          cases a with
          | manual a => rfl
          | sheets a => cases c <;> cases a <;> rfl
      simp only [State.told, Label.losing, Dispatch.State.told, Dispatch.Label.losing, hcheck]
    | _ => rfl
  | _ => rfl

theorem lost_losing {l : Label newURL} (h : (s.told l).isSome) (lost : Bool) :
    (l.losing lost).lost = lost := by
  cases l with
  | dispatch l =>
    cases l with
    | work i a =>
      cases a with
      | manual a | sheets a => cases a <;> rfl
    | check j t => rfl
    | _ => cases h
  | _ => cases h

theorem step_published {l : Label newURL} (hs : step clock s l = some s') :
    s'.world.published = s.world.published ++ if l.lost then [] else (s.told l).toList := by
  have h := step_say clock s l s.world.published l.lost
  rw [Label.losing_lost, show s.say s.world.published = s from rfl, hs, Option.map_some,
    Option.some_inj] at h
  exact congrArg (fun s : State newURL => s.world.published) h

theorem exec_mute (clock : Sheets.LocalClock) (s : State newURL) (labels : List (Label newURL)) :
    exec (step clock) (s.say []) (labels.map (Label.losing true)) =
      (exec (step clock) s labels).map fun s' => s'.say [] := by
  induction labels generalizing s with
  | nil => rfl
  | cons l labels ih =>
    simp only [List.map_cons, exec, step_say]
    cases hs : step clock s l with
    | none => rfl
    | some s' => exact ih s'

/-- A publish that fails is only logged: any run can be repeated with any other publishes failing,
and ends with the same rows, the same queues, the same locks and the same answers to every
request. -/
theorem lost_publishes_change_nothing
    (hr : exec (step clock) (.start db locks time) labels = some s)
    (h : labels'.map (Label.losing true) = labels.map (Label.losing true)) :
    ∃ s', exec (step clock) (.start db locks time) labels' = some s' ∧ s'.say [] = s.say [] := by
  have hmute := exec_mute clock (.start db locks time) labels'
  rw [h, exec_mute, hr, Option.map_some, eq_comm, Option.map_eq_some_iff] at hmute
  exact hmute

theorem lost_publishes_change_nothing_sample : ∃ s s', run begun rechecked = some s ∧
    run begun (rechecked.map (Label.losing true)) = some s' ∧ s.world.published.length = 2 ∧
    s'.world.published = [] ∧ s'.say [] = s.say [] := by
  obtain ⟨s, hs, hlen⟩ := exists_of_any (P := fun s : State _ => s.world.published.length = 2)
    (s := run begun rechecked) (by decide +kernel)
  obtain ⟨s', hs', hnil⟩ := exists_of_any (P := fun s : State _ => s.world.published = [])
    (s := run begun (rechecked.map (Label.losing true))) (by decide +kernel)
  have hsame : (rechecked.map (.losing true)).map (Label.losing true) =
      rechecked.map (.losing true) := by
    rw [List.map_map]
    exact List.map_congr_left fun l _ => l.losing_losing true true
  obtain ⟨s₁, hs₁, hsame⟩ := lost_publishes_change_nothing hs hsame
  obtain rfl := Option.some.inj (hs'.symm.trans hs₁)
  exact ⟨s, s', hs, hs', hlen, hnil, hsame⟩

end LinkBulker.Backend
