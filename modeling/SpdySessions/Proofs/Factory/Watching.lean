import SpdySessions.Factory.Builder
import SpdySessions.Proofs.Factory.Accepted
import SpdySessions.Proofs.Factory.Terms

/-! Which connects are watched. A connected socket is looked at for the first time when the idle timeout
that applies to it has passed, and never if that is zero. A client's own timeout applies as it is. The
one that a factory was built with has gone through whole milliseconds: it is rounded down, so a
connection is never idle for longer than was asked, but a timeout of less than a millisecond is zero by
the time that it applies. -/

namespace SpdySessions

namespace Span

/-- What is left of a span that was written down in whole milliseconds. -/
def rounded (d : Span) : Span :=
  .ofMillis d.millis

theorem toNanos_rounded (d : Span) :
    d.rounded.toNanos = min (d.toNanos / 1_000_000) 0xffffffffffffffff * 1_000_000 := by
  have hfits : min (d.toNanos / 1_000_000) 0xffffffffffffffff % 2 ^ 64 =
      min (d.toNanos / 1_000_000) 0xffffffffffffffff := Nat.mod_eq_of_lt (by omega)
  rw [rounded, toNanos_ofMillis, millis, UInt64.toNat_ofNat', hfits]

theorem toNanos_rounded_le (d : Span) : d.rounded.toNanos ≤ d.toNanos := by
  have hrounded := d.toNanos_rounded
  omega

theorem isZero_iff (d : Span) : d.isZero = true ↔ d.toNanos = 0 := by
  rw [isZero, beq_iff_eq]

theorem isZero_rounded_iff (d : Span) : d.rounded.isZero = true ↔ d.toNanos < 1_000_000 := by
  have hrounded := d.toNanos_rounded
  rw [isZero_iff]
  omega

end Span

/-- Whoever watches a connection looks first when the idle timeout of its attempt has passed. -/
theorem Attempt.firstCheck_watchdog {codec : HeaderCodec} (a : Attempt codec) :
    a.watchdog.firstCheck =
      if a.idleTimeout.isZero then none else some a.idleTimeout.toNanos := by
  simp only [watchdog, Watchdog.firstCheck, ← Span.isZero_iff]

/-- When the looks at a channel are due that a scheduler has in hand. -/
def Scheduler.looksAt (s : Scheduler ChannelId) (id : ChannelId) : List Nat :=
  (s.pending.filter (·.body = id)).map (·.due)

theorem Scheduler.looksAt_schedule {s : Scheduler ChannelId} (h : s.stopped = false) (delay : Nat)
    (id : ChannelId) : (s.schedule delay id).2.looksAt id = s.looksAt id ++ [s.now + delay] := by
  simp [schedule, h, looksAt]

namespace Factory

variable {codec : HeaderCodec} {f f' : Factory codec} {id : ChannelId}

/-! ### A factory keeps its configuration -/

theorem config_after (f : Factory codec) (e : Event) : (f.after e).config = f.config := by
  cases hbeside : e.isBeside with
  | true =>
      have hacts : f.Acts (fun _ => True) (f.after e) :=
        acts_of_isBeside hbeside (fun _ => trivial) f
      obtain ⟨downs, hlife⟩ := hacts
      exact hlife.config
  | false =>
      cases e with
      | start executor => exact config_start f executor
      | markStopping => rfl
      | retire =>
          exact foldl_same config (farewell_same config (call_same config fun _ _ _ => rfl)) f.sessions f
      | takeDown component => exact outlasts_config.takeDown f component
      | stopConnector run =>
          exact stopConnector_same config outlasts_config.connector outlasts_config.fail
            outlasts_config.close f run
      | markStopped => rfl
      | stop => exact config_stop f
      | drop => exact outlasts_config.takeAllDown f
      | newClient | configure | onComplete | call | cancel | close | noticeClosed | dialed | establish
        | secured | turn | pass | fire => cases hbeside

theorem config_register (f : Factory codec) (run client : Nat) (peer : Address)
    (listener : Session.Listener) : (f.register run client peer listener).2.config = f.config := by
  have hbeside : f.Beside (fun _ => True) (f.register run client peer listener).2 :=
    beside_register trivial f client peer listener
  exact hbeside.config

theorem config_connect (f : Factory codec) (client : Nat) (peer : Address) (listener : Session.Listener)
    (socket : Except Fault Unit) : (f.connect client peer listener socket).2.config = f.config := by
  have hbeside : f.Beside (fun _ => True) (f.connect client peer listener socket).2 :=
    beside_connect trivial client peer listener socket
  exact hbeside.config

theorem Step.config {new : List ChannelId} (h : Step f new f') : f'.config = f.config := by
  cases h with
  | registered h | refused h => exact (congrArg (·.2.config) h).symm.trans (config_register f _ _ _ _)
  | connected h | unconnected h => exact (congrArg (·.2.config) h).symm.trans (config_connect f _ _ _ _)
  | event e => exact config_after f e

theorem Course.config {accepted : List ChannelId} (h : Course f accepted f') : f'.config = f.config := by
  induction h with
  | refl => rfl
  | step h hstep ih => exact hstep.config.trans ih

theorem config_of_build {b : Builder} {f : Factory b.codec} (h : b.build = .ok f) :
    f.config = b.config := by
  unfold Builder.build at h
  split at h
  · cases h
  · obtain rfl := Except.ok.inj h
    rfl

/-- A factory that was built with an idle timeout has it in whole milliseconds, whatever became of the
factory since. -/
theorem idleTimeout_of_build {b : Builder} {d : Span} {f₀ f : Factory (b.idleTimeout d).codec}
    {accepted : List ChannelId} (hbuilt : (b.idleTimeout d).build = .ok f₀)
    (hcourse : Course f₀ accepted f) : f.idleTimeout = d.rounded := by
  have hmillis : (b.idleTimeout d).config.idleTimeoutMs = d.millis := rfl
  have hconfig : f.config = (b.idleTimeout d).config := hcourse.config.trans (config_of_build hbuilt)
  rw [idleTimeout, Config.idleTimeout, hconfig, hmillis, Span.rounded]

/-! ### The moment when a socket is connected -/

theorem attempts_plans (h : f.Plans id f') : f'.attempts = f.attempts := by
  cases h with
  | nothing => rfl
  | look => rfl

theorem looksAt_armBy (firstCheck : Watchdog → Option Nat) {a : Attempt codec}
    {s : Scheduler ChannelId} (ha : f.attempts[id]? = some a) (hs : f.schedulers[a.run]? = some s)
    (hstopped : s.stopped = false) :
    ∃ s', (f.armBy firstCheck id).schedulers[a.run]? = some s' ∧
      s'.looksAt id = s.looksAt id ++ (firstCheck a.watchdog).toList.map (s.now + ·) := by
  unfold armBy
  rw [ha]
  dsimp only
  cases firstCheck a.watchdog with
  | none => exact ⟨s, hs, (List.append_nil _).symm⟩
  | some delay =>
      refine ⟨(s.schedule delay id).2, ?_, Scheduler.looksAt_schedule hstopped delay id⟩
      dsimp only
      rw [List.getElem?_modify_eq, hs]
      rfl

/-- The first look at a channel is due when its idle timeout has passed; there is none if that is zero. -/
theorem looksAt_arm {a : Attempt codec} {s : Scheduler ChannelId} (ha : f.attempts[id]? = some a)
    (hs : f.schedulers[a.run]? = some s) (hstopped : s.stopped = false) :
    ∃ s', (f.arm id).schedulers[a.run]? = some s' ∧ s'.looksAt id = s.looksAt id ++
      if a.idleTimeout.isZero then [] else [s.now + a.idleTimeout.toNanos] := by
  obtain ⟨s', hs', hlooks⟩ := looksAt_armBy Watchdog.firstCheck ha hs hstopped
  refine ⟨s', hs', ?_⟩
  rw [hlooks, a.firstCheck_watchdog]
  cases a.idleTimeout.isZero with
  | true => rfl
  | false => rfl

/-- A connected socket gets the idle timeout that applies to it, and is looked at by that. -/
theorem looksAt_dialed {a : Attempt codec} {s : Scheduler ChannelId} (ha : f.attempts[id]? = some a)
    (hdialing : a.stage.isDialing = true) (hs : f.schedulers[a.run]? = some s)
    (hstopped : s.stopped = false) (remote : Address) :
    ∃ a' s', (f.dialed id (.ok remote)).attempts[id]? = some a' ∧
      (f.dialed id (.ok remote)).schedulers[a.run]? = some s' ∧
      a'.idleTimeout = (f.clientOf a).idleTimeoutOr f.idleTimeout ∧
      s'.looksAt id = s.looksAt id ++
        if a'.idleTimeout.isZero then [] else [s.now + a'.idleTimeout.toNanos] := by
  let connected : Factory codec := f.modify id fun b => { b with
    stage := .connected, remote := remote
    idleTimeout := (f.clientOf a).idleTimeoutOr f.idleTimeout }
  have hconnected : connected.attempts[id]? = some { a with
      stage := .connected, remote := remote
      idleTimeout := (f.clientOf a).idleTimeoutOr f.idleTimeout } := attempts_modify_self ha _
  obtain ⟨b, htouched, hrun, htimeout⟩ : ∃ b, (connected.touch id).attempts[id]? = some b ∧
      b.run = a.run ∧ b.idleTimeout = (f.clientOf a).idleTimeoutOr f.idleTimeout := by
    unfold touch
    rw [hconnected]
    exact ⟨_, attempts_modify_self hconnected _, rfl, rfl⟩
  have hschedulers : (connected.touch id).schedulers[b.run]? = some s := by
    unfold touch
    rw [hconnected, hrun]
    exact hs
  have hdialed : f.dialed id (.ok remote) = (connected.touch id).arm id := by
    simp only [dialed, ha, hdialing, if_true]
    rfl
  obtain ⟨s', hs', hlooks⟩ := looksAt_arm htouched hschedulers hstopped
  rw [hdialed]
  exact ⟨b, s', (attempts_plans (plans_arm _ id)).symm ▸ htouched, hrun ▸ hs', htimeout, hlooks⟩

/-- **The first look at a connect.** A factory was built with some idle timeout, and whatever happened
since, a socket is connected. Its idle timeout is the client's own if that is set, and else the one of
the factory, rounded down to whole milliseconds; it is never longer than was asked. One look at the
channel is scheduled, for the moment when that timeout has passed, unless it is zero: that is when the
client asked for zero, or did not ask and the factory was built with less than a millisecond. -/
theorem first_look_of_timeout {b : Builder} {d : Span} {f₀ f : Factory (b.idleTimeout d).codec}
    {accepted : List ChannelId} {a : Attempt (b.idleTimeout d).codec} {s : Scheduler ChannelId}
    (hbuilt : (b.idleTimeout d).build = .ok f₀) (hcourse : Course f₀ accepted f)
    (ha : f.attempts[id]? = some a) (hdialing : a.stage.isDialing = true)
    (hs : f.schedulers[a.run]? = some s) (hstopped : s.stopped = false) (remote : Address) :
    ∃ a' s', (f.dialed id (.ok remote)).attempts[id]? = some a' ∧
      (f.dialed id (.ok remote)).schedulers[a.run]? = some s' ∧
      s'.looksAt id = s.looksAt id ++
        (if a'.idleTimeout.isZero then [] else [s.now + a'.idleTimeout.toNanos]) ∧
      a'.idleTimeout.toNanos ≤ ((f.clientOf a).idleTimeoutOr d).toNanos ∧
      match (f.clientOf a).idleTimeout with
      | some e => a'.idleTimeout = e
      | none =>
          a'.idleTimeout.toNanos = min (d.toNanos / 1_000_000) 0xffffffffffffffff * 1_000_000 ∧
          (a'.idleTimeout.isZero = true ↔ d.toNanos < 1_000_000) := by
  obtain ⟨a', s', ha', hs', htimeout, hlooks⟩ := looksAt_dialed ha hdialing hs hstopped remote
  rw [idleTimeout_of_build hbuilt hcourse] at htimeout
  refine ⟨a', s', ha', hs', hlooks, ?_⟩
  rw [htimeout]
  cases hown : (f.clientOf a).idleTimeout with
  | some e =>
      have happlies : ∀ usual, (f.clientOf a).idleTimeoutOr usual = e := fun usual => by
        rw [Client.idleTimeoutOr, hown, Option.getD_some]
      rw [happlies, happlies]
      exact ⟨Nat.le_refl _, rfl⟩
  | none =>
      have happlies : ∀ usual, (f.clientOf a).idleTimeoutOr usual = usual := fun usual => by
        rw [Client.idleTimeoutOr, hown, Option.getD_none]
      rw [happlies, happlies]
      exact ⟨d.toNanos_rounded_le, d.toNanos_rounded, d.isZero_rounded_iff⟩

/-- A builder of factories that are idle for as long as is given. -/
def patientFor (d : Span) : Builder :=
  ({ suppliedExecutor := true } : Builder).idleTimeout d

def built (d : Span) : Factory (patientFor d).codec :=
  { config := (patientFor d).config, suppliedExecutor := true }

/-- The factory has a client, is started, and the client's socket is being connected. -/
def dialing (d : Span) : Factory (patientFor d).codec :=
  ((((built d).after (.newClient 3)).after (.start (.ok ()))).register 0 0 host .silent).2

theorem course_dialing (d : Span) : Course (built d) [0] (dialing d) := by
  have hregistered : (((built d).after (.newClient 3)).after (.start (.ok ()))).register 0 0 host
      .silent = (.ok (), dialing d) := rfl
  exact ((Course.refl.step (.event (.newClient 3))).step (.event (.start (.ok ())))).step
    (.registered hregistered)

/-- Of a timeout of a nanosecond less than two milliseconds, one is left, and the look is due then. -/
theorem first_look_of_dialing :
    Course (built ⟨0, 1_999_999, by decide⟩) [0] (dialing ⟨0, 1_999_999, by decide⟩) ∧
    ∃ a' s', ((dialing ⟨0, 1_999_999, by decide⟩).dialed 0 (.ok host)).attempts[0]? = some a' ∧
      ((dialing ⟨0, 1_999_999, by decide⟩).dialed 0 (.ok host)).schedulers[0]? = some s' ∧
      (Attempt.idleTimeout a').toNanos = 1_000_000 ∧ s'.looksAt 0 = [1_000_000] := by
  have hcourse := course_dialing ⟨0, 1_999_999, by decide⟩
  have ha : (dialing ⟨0, 1_999_999, by decide⟩).attempts[0]? = some _ := rfl
  obtain ⟨a', s', ha', hs', hlooks, -, htimeout, -⟩ :=
    first_look_of_timeout (b := { suppliedExecutor := true }) (s := {}) rfl hcourse ha rfl rfl rfl host
  have hmillisecond : a'.idleTimeout.toNanos = 1_000_000 := htimeout.trans (by decide)
  have hwaits : ¬a'.idleTimeout.isZero = true := fun h => by
    rw [(Span.isZero_iff _).mp h] at hmillisecond
    cases hmillisecond
  rw [if_neg hwaits, hmillisecond] at hlooks
  exact ⟨hcourse, a', s', ha', hs', hmillisecond, hlooks⟩

/-- It would be that only a zero keeps everybody from looking if a timeout that is not zero stayed so. -/
def OnlyZeroDisarms : Prop :=
  ∀ {b : Builder} {d : Span} {f₀ f : Factory (b.idleTimeout d).codec} {accepted : List ChannelId}
    {id : ChannelId} {a : Attempt (b.idleTimeout d).codec} {s s' : Scheduler ChannelId}
    {remote : Address}, (b.idleTimeout d).build = .ok f₀ → Course f₀ accepted f →
    f.attempts[id]? = some a → a.stage.isDialing = true → f.schedulers[a.run]? = some s →
    s.stopped = false → (f.dialed id (.ok remote)).schedulers[a.run]? = some s' →
    (s'.looksAt id = s.looksAt id ↔ ((f.clientOf a).idleTimeoutOr d).isZero = true)

/-- Of a timeout of a nanosecond less than one millisecond nothing is left. -/
theorem not_onlyZeroDisarms : ¬OnlyZeroDisarms := by
  intro hclaim
  let d : Span := ⟨0, 999_999, by decide⟩
  have ha : (dialing d).attempts[0]? = some _ := rfl
  obtain ⟨a', s', -, hs', htimeout, hlooks⟩ := looksAt_dialed (s := {}) ha rfl rfl rfl host
  have hcourse := course_dialing d
  have hrounded : (dialing d).idleTimeout = d.rounded :=
    idleTimeout_of_build (b := { suppliedExecutor := true }) rfl hcourse
  have hgone : a'.idleTimeout.isZero = true := by
    rw [htimeout, hrounded]
    exact d.isZero_rounded_iff.mpr (by decide)
  rw [if_pos hgone, List.append_nil] at hlooks
  have hzero : d.isZero = true :=
    (hclaim (b := { suppliedExecutor := true }) rfl hcourse ha rfl rfl rfl hs').mp hlooks
  exact absurd hzero (by decide)

end Factory

end SpdySessions
