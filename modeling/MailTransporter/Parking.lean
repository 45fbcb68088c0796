import MailTransporter.Accounting

set_option autoImplicit false

/-! # What the settlement attempts

`_settle_rejections` for any threshold, any list of rejections and any client. It does not read an
empty list as long as the threshold is not negative, or Gmail accepted a mail, or rejected one for a
reason that is not the mail's own; then it returns, and it has called `_quarantine` for the
rejections that are due, in their order, up to the first call that ended in an `AbortRun`. -/

namespace MailTransporter

open Effect
open Effect.Routine (raise attempt getSelf modifySelf)
open Exceptions (recorded answersOf)
open Forwarder (suspicious trips due)

/-- The state with another error in its result. -/
abbrev RunState.withError (s : RunState) (error : Option String) : RunState :=
  { s with result := { s.result with error := error } }

namespace Parking

variable {W : Type}

/-! ## The calls of `_quarantine` -/

/-- The calls of `_quarantine` for rejected mail, each with its outcome, one after the other. -/
inductive Attempts (h : W → (op : Op) → Reply op × W) (o : ForwarderOptions) :
    RunState → W → List (Rejection × Except Exc Unit) → RunState → W → Prop
  | none (s : RunState) (w : W) : Attempts h o s w [] s w
  | one {s s' s'' : RunState} {w w' w'' : W} {outcome : Except Exc Unit} (rejection : Rejection)
      {rest : List (Rejection × Except Exc Unit)}
      (hq : (Forwarder.quarantine o rejection.uid o.keywords.failed o.failedFolder).exec h s w =
        ((outcome, s'), w'))
      (hrest : Attempts h o s' w' rest s'' w'') :
      Attempts h o s w ((rejection, outcome) :: rest) s'' w''

/-- All the attempts succeeded. -/
def Succeeded (tried : List (Rejection × Except Exc Unit)) : Prop :=
  ∀ try' ∈ tried, try'.2 = .ok ()

/-- What the attempts for a list of rejections come to: every rejection was tried, with success; or
    an `AbortRun` of the last attempt was the end. -/
def Conclude (rejected : List Rejection) (tried : List (Rejection × Except Exc Unit)) : Prop :=
  (tried.map Prod.fst = rejected ∧ Succeeded tried) ∨
  ∃ before rejection text, tried = before ++ [(rejection, .error (.abortRun text))] ∧
    Succeeded before ∧ tried.map Prod.fst <+: rejected

theorem Conclude.cons {rejected : List Rejection} {tried : List (Rejection × Except Exc Unit)}
    (h : Conclude rejected tried) (rejection : Rejection) :
    Conclude (rejection :: rejected) ((rejection, .ok ()) :: tried) := by
  have hcons : ∀ {l : List (Rejection × Except Exc Unit)}, Succeeded l →
      Succeeded ((rejection, .ok ()) :: l) := by
    intro l hl try' htry
    rcases List.mem_cons.mp htry with rfl | htry
    · rfl
    · exact hl try' htry
  rcases h with ⟨hall, hok⟩ | ⟨before, last, text, rfl, hok, hprefix⟩
  · left
    exact ⟨by rw [List.map_cons, hall], hcons hok⟩
  · right
    refine ⟨(rejection, .ok ()) :: before, last, text, rfl, hcons hok, ?_⟩
    rw [List.map_cons]
    exact (List.prefix_cons_inj rejection).mpr hprefix

/-- Whatever has been rejected was tried, unless an attempt was aborted. -/
theorem Conclude.tried_or_aborted {rejected : List Rejection}
    {tried : List (Rejection × Except Exc Unit)} (h : Conclude rejected tried)
    {rejection : Rejection} (hin : rejection ∈ rejected) :
    rejection ∈ tried.map Prod.fst ∨ ∃ last text, (last, .error (.abortRun text)) ∈ tried := by
  rcases h with ⟨hall, -⟩ | ⟨before, last, text, rfl, -, -⟩
  · left
    rw [hall]
    exact hin
  · right
    exact ⟨last, text, List.mem_append_right _ List.mem_cons_self⟩

variable {h : W → (op : Op) → Reply op × W} {o : ForwarderOptions}

/-- `_quarantine` returns or raises an `AbortRun`. -/
theorem quarantine_outcome (h : W → (op : Op) → Reply op × W) (o : ForwarderOptions) (uid : ℕ)
    (keyword folder : String) (s : RunState) (w : W) :
    ((Forwarder.quarantine o uid keyword folder).exec h s w).1.1 = .ok () ∨
    ∃ text, ((Forwarder.quarantine o uid keyword folder).exec h s w).1.1 =
      .error (.abortRun text) := by
  have hq := Exceptions.Run.quarantine_aborts (A := answersOf h) o uid keyword folder s []
  exact Accounting.exec_of_recorded (hq.mono (fun _ _ _ hq => hq.2.2)) rfl

/-- The `for` loop returns; induction on the list, a call of `_quarantine` for each step. -/
theorem quarantineAll_attempts (rejected : List Rejection) (s : RunState) (w : W) :
    ∃ tried s' w' error, Attempts h o s w tried s' w' ∧ Conclude rejected tried ∧
      (Forwarder.quarantineAll o rejected).exec h s w = ((.ok (), s'.withError error), w') := by
  induction rejected generalizing s w with
  | nil => exact ⟨[], s, w, s.result.error, .none s w, Or.inl ⟨rfl, nofun⟩, rfl⟩
  | cons rejection rest ih =>
      have houtcome := quarantine_outcome h o rejection.uid o.keywords.failed o.failedFolder s w
      rcases hq : (Forwarder.quarantine o rejection.uid o.keywords.failed o.failedFolder).exec h s w
        with ⟨⟨outcome, s'⟩, w'⟩
      rw [hq] at houtcome
      have hstep : (attempt (Forwarder.quarantine o rejection.uid o.keywords.failed
          o.failedFolder)).exec h s w = ((.ok outcome, s'), w') := by
        rw [Routine.exec_attempt, hq]
      rw [Forwarder.quarantineAll, Routine.exec_bind_ok _ _ _ hstep]
      rcases houtcome with hok | ⟨text, haborted⟩
      · have hok : outcome = .ok () := hok
        subst hok
        obtain ⟨tried, s'', w'', error, hattempts, hconclude, hrun⟩ := ih s' w'
        exact ⟨_, s'', w'', error, .one rejection hq hattempts, hconclude.cons rejection, hrun⟩
      · have haborted : outcome = .error (.abortRun text) := haborted
        subst haborted
        have hconclude : Conclude (rejection :: rest) [(rejection, .error (.abortRun text))] :=
          Or.inr ⟨[], rejection, text, rfl, nofun, by simp⟩
        exact ⟨_, s', w', s'.result.keepError text, .one rejection hq (.none s' w'), hconclude, rfl⟩

/-! ## The settlement -/

/-- A threshold below zero makes the breaker trip over an empty list. -/
def TripsOnNothing (o : ForwarderOptions) (s : RunState) : Prop :=
  o.rejectionThreshold < 0 ∧ suspicious s.rejected = [] ∧ s.result.forwarded = 0

theorem suspicious_ne_nil {s : RunState} (hnothing : ¬TripsOnNothing o s)
    (htrips : trips o s = true) : suspicious s.rejected ≠ [] := by
  intro hnil
  simp only [trips, Forwarder.breakerTrips, Bool.and_eq_true, decide_eq_true_eq, hnil,
    List.length_nil] at htrips
  obtain ⟨⟨hne, hle⟩, hforwarded⟩ := htrips
  have hneg : o.rejectionThreshold < 0 := by omega
  exact hnothing ⟨hneg, hnil, hforwarded⟩

/-- Mail that is itself the cause of its rejection is due in either case. -/
theorem mem_due {s : RunState} {rejection : Rejection} (hin : rejection ∈ s.rejected)
    (hown : rejection.perMessage = true) : rejection ∈ due o s := by
  unfold due
  split
  · exact List.mem_filter.mpr ⟨hin, hown⟩
  · exact hin

/-- The settlement is a run of the loop over what is due. -/
theorem settleRejections_due {s : RunState} {w : W} (hnothing : ¬TripsOnNothing o s) : ∃ error,
    (Forwarder.settleRejections o).exec h s w =
      (Forwarder.quarantineAll o (due o s)).exec h (s.withError error) w := by
  rcases hsettle : Forwarder.settlement h o (due o s) (Forwarder.marked o s) w with
    ⟨leftover, s', w'⟩
  have hloop := Forwarder.quarantineAll_exec h o hsettle
  rw [Forwarder.settleRejections_exec h o (suspicious_ne_nil hnothing) hsettle, ← hloop,
    Forwarder.marked]
  split
  · exact ⟨_, rfl⟩
  · exact ⟨s.result.error, rfl⟩

/-- **The settlement.** Whatever the threshold, the rejections, the accepted mail and the client,
    the breaker only trips over a rejection that is not the mail's own fault, the settlement
    returns, and all that is due was tried, with success, unless an `AbortRun` was the end of it. -/
theorem settlement (h : W → (op : Op) → Reply op × W) (o : ForwarderOptions) (s : RunState) (w : W)
    (hnothing : ¬TripsOnNothing o s) :
    (trips o s = true → ∃ rejection ∈ s.rejected, rejection.perMessage = false) ∧
    ∃ before after tried s' w', Attempts h o (s.withError before) w tried s' w' ∧
      (Forwarder.settleRejections o).exec h s w = ((.ok (), s'.withError after), w') ∧
      Conclude (due o s) tried ∧
      ∀ rejection ∈ s.rejected, rejection.perMessage = true →
        rejection ∈ tried.map Prod.fst ∨
          ∃ last text, (last, .error (.abortRun text)) ∈ tried := by
  constructor
  · intro htrips
    obtain ⟨rejection, hin⟩ := List.exists_mem_of_ne_nil _ (suspicious_ne_nil hnothing htrips)
    obtain ⟨hin, hother⟩ := List.mem_filter.mp hin
    exact ⟨rejection, hin, by simpa using hother⟩
  · obtain ⟨before, hrun⟩ := settleRejections_due (h := h) (w := w) hnothing
    obtain ⟨tried, s', w', after, hattempts, hconclude, hloop⟩ :=
      quarantineAll_attempts (h := h) (o := o) (due o s) (s.withError before) w
    refine ⟨before, after, tried, s', w', hattempts, hrun.trans hloop, hconclude, ?_⟩
    intro rejection hin hown
    exact hconclude.tried_or_aborted (mem_due hin hown)

/-! ## Two settlements that fail the oversized mail -/

/-- A client whose connection is lost. -/
def lostConnection : Unit → (op : Op) → Reply op × Unit :=
  fun _ _ => (.error (.other "OSError" "socket error: EOF"), ())

/-- The loop has ended with two rejections of mail that is too large. -/
def twoTooLarge : RunState where
  mailbox := Exceptions.connectedSession
  result := {}
  rejected := [⟨1, "Request entity too large", true⟩, ⟨2, "Request entity too large", true⟩]

/-- With a negative threshold the settlement raises an `IndexError` and attempts nothing. With the
    default threshold and a connection that is lost it calls nothing for the second rejection. -/
theorem oversized_not_attempted :
    ((Forwarder.settleRejections Exceptions.negativeThreshold).exec (recorded lostConnection)
      twoTooLarge ((), [])).1.1 = .error (.other "IndexError" "list index out of range") ∧
    ((Forwarder.settleRejections Exceptions.negativeThreshold).exec (recorded lostConnection)
      twoTooLarge ((), [])).2.2 = [] ∧
    ((Forwarder.settleRejections .default).exec (recorded lostConnection)
      twoTooLarge ((), [])).2.2.map Sigma.fst =
        [.addFlags 1 "$GmailFailed", .folderExists "Forward-Failed"] := by
  refine ⟨rfl, rfl, ?_⟩
  decide +kernel

/-- The settlement over the lost connection, with the default options. -/
theorem settlement_lostConnection :
    ((Forwarder.settleRejections .default).exec lostConnection twoTooLarge ()).1.1 = .ok () := by
  have hnothing : ¬TripsOnNothing .default twoTooLarge := fun h => absurd h.1 (by decide)
  obtain ⟨-, before, after, tried, s', w', -, hrun, -⟩ :=
    settlement lostConnection .default twoTooLarge () hnothing
  rw [hrun]

end Parking

end MailTransporter
