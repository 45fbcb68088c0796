import MailTransporter.Cli
import MailTransporter.MailboxRules

set_option autoImplicit false

/-! # Rules for the maintenance commands

The rules of `retry` and `mark-failed`, for any environment and any discipline. They say which
messages a command writes on, and what stands behind every line it prints. -/

namespace MailTransporter

open Effect
open Effect.Routine (raise attempt getSelf modifySelf settle)

variable {W : Type} {E : Env Op Reply W} {D : Discipline Op W}

namespace Cli

@[simp] theorem safe_onMailbox {α : Type} {m : Mailbox α} {Q : Except Exc α → CliState → W → Prop}
    {s : CliState} {w : W} : (onMailbox m).Safe E D Q s w ↔
      m.Safe E D (fun o mailbox w' => Q o { s with mailbox := mailbox } w') s.mailbox w :=
  Routine.safe_on

@[simp] theorem safe_print {line : Line} {Q : Except Exc Unit → CliState → W → Prop} {s : CliState}
    {w : W} :
    (print line).Safe E D Q s w ↔ Q (.ok ()) { s with output := s.output ++ [line] } w := Iff.rfl

variable (G : Growth E D (fun op => op.isImap = true))
  (quiet : ∀ w op, op.isLook = true → D.guard w op)

include G quiet

/-- Looking at the mailbox, inside a command. -/
theorem safe_looks {α : Type} {m : Mailbox α} {Q : Except Exc α → CliState → W → Prop}
    {s : CliState} {w : W} (hm : ICloudMailbox.Looks m)
    (h : ∀ r s' w', s'.output = s.output → G.grow w w' → Q r s' w') :
    (onMailbox m).Safe E D Q s w := by
  rw [safe_onMailbox]
  refine (ICloudMailbox.looks_safe G hm (fun w' op _ hop => quiet w' op hop)).mono ?_
  exact fun r mailbox w' hw' => h r _ w' rfl hw'

/-- Opening and closing the session around a command prints nothing. -/
theorem withMailbox_safe {α : Type} {body : Command α}
    {Q : Except Exc α → List Line → W → Prop} {s : CliState} {w : W}
    (stable : ∀ {r output w w'}, G.grow w w' → Q r output w → Q r output w')
    (hraise : ∀ e e' output w, Q e output w → Q (.error e') output w)
    (hconnect : ∀ e w', G.grow w w' → Q (.error e) s.output w')
    (hbody : ∀ s' w', s'.output = s.output → G.grow w w' →
      body.Safe E D (fun r s'' => Q r s''.output) s' w') :
    (withMailbox body).Safe E D (fun r s' => Q r s'.output) s w := by
  simp only [withMailbox, Routine.safe_bind]
  refine safe_looks G quiet ICloudMailbox.connect_glances.looks ?_
  intro r s₁ w₁ hs₁ hw₁
  cases r with
  | error e =>
      rw [Routine.after_error, hs₁]
      exact hconnect e w₁ hw₁
  | ok _ =>
      simp only [Routine.after_ok, Routine.safe_bind, Routine.safe_attempt]
      refine (hbody s₁ w₁ hs₁ hw₁).mono ?_
      intro outcome s₂ w₂ h₂
      refine safe_looks G quiet ICloudMailbox.close_glances.looks ?_
      intro r s₃ w₃ hs₃ hw₃
      have h₃ := stable hw₃ h₂
      rw [← hs₃] at h₃
      cases r with
      | error e => exact hraise _ _ _ _ h₃
      | ok _ =>
          simp only [Routine.after_ok, Routine.safe_settle]
          exact h₃

/-! ## `list-quarantined` -/

omit quiet in
/-- Every entry of the report stands for an item of a listing. -/
theorem collect_safe {parse : Option (List UInt8) → ICloudMailbox.Headers} {k : Keywords}
    (hlook : ∀ w op, op.isLook = true → D.guard w op) {s : ICloudMailbox} {w : W} :
    (collect parse k).Safe E D (fun r _ _ => ∀ entries, r = .ok entries → ∀ e ∈ entries,
      ∃ flags w₁ w₂, G.grow w w₁ ∧ ICloudMailbox.Lists E G.grow w₁ flags w₂ ∧
        ∃ item ∈ flags, ∃ e', entryFor k item.1 item.2 = some e' ∧ e.uid = e'.uid ∧
          e.inGmail = e'.inGmail) s w := by
  rw [collect, Routine.safe_bind]
  refine (ICloudMailbox.inboxFlags_safe G hlook).mono ?_
  rintro r s₁ w₁ ⟨-, hlists⟩
  cases r with
  | error e => exact nofun
  | ok flags =>
      obtain ⟨v, hv, hl⟩ := hlists flags rfl
      simp only [Routine.after_ok, Routine.safe_bind]
      refine (ICloudMailbox.looks_safe G (ICloudMailbox.fetchHeaders_glances parse _).looks
        (fun w' op _ hop => hlook w' op hop)).mono ?_
      intro r s₂ w₂ _
      cases r with
      | error e => exact nofun
      | ok headers =>
          rintro entries ⟨⟩ e he
          obtain ⟨e', he', rfl⟩ := List.mem_map.mp ((List.perm_insertionSort _ _).mem_iff.mp he)
          obtain ⟨item, hitem, hentry⟩ := List.mem_filterMap.mp he'
          exact ⟨flags, v, w₁, hv, hl, item, hitem, e', hentry, rfl, rfl⟩

/-! ## `retry` -/

/-- What stands behind the lines of a `retry`: a line that reports a message as cleared was printed
    after a reply had shown it without the keyword. -/
def RetryLines (E : Env Op Reply W) (grow : W → W → Prop) (keyword : String) (carrying : List ℕ)
    (w : W) (lines : List Line) (w' : W) : Prop :=
  grow w w' ∧ ∀ uid keyword', Line.cleared uid keyword' ∈ lines →
    keyword' = keyword ∧ uid ∈ carrying ∧ ∃ w₁ w₂, grow w w₁ ∧
      ICloudMailbox.ShowsCleared E w₁ uid keyword w₂ ∧ grow w₂ w'

omit quiet in
theorem RetryLines.append {keyword : String} {carrying : List ℕ} {w w' w'' : W}
    {lines lines' : List Line} (h : RetryLines E G.grow keyword carrying w lines w')
    (h' : RetryLines E G.grow keyword carrying w' lines' w'') :
    RetryLines E G.grow keyword carrying w (lines ++ lines') w'' := by
  refine ⟨G.trans h.1 h'.1, fun uid keyword' hline => ?_⟩
  rcases List.mem_append.mp hline with hline | hline
  · obtain ⟨rfl, hin, w₁, w₂, h₁, hc, h₂⟩ := h.2 uid keyword' hline
    exact ⟨rfl, hin, w₁, w₂, h₁, hc, G.trans h₂ h'.1⟩
  · obtain ⟨rfl, hin, w₁, w₂, h₁, hc, h₂⟩ := h'.2 uid keyword' hline
    exact ⟨rfl, hin, w₁, w₂, G.trans h.1 h₁, hc, h₂⟩

theorem retryAll_safe {keyword : String} {carrying uids : List ℕ} {s : CliState} {w : W}
    (hremove : ∀ uid ∈ carrying, ∀ w', G.grow w w' → D.guard w' (.removeFlags uid keyword)) :
    (retryAll keyword carrying uids).Safe E D (fun _ s' w' => ∃ lines,
      s'.output = s.output ++ lines ∧ RetryLines E G.grow keyword carrying w lines w') s w := by
  induction uids generalizing s w with
  | nil => exact ⟨[], (List.append_nil _).symm, G.refl w, nofun⟩
  | cons uid rest ih =>
      unfold retryAll
      split
      · next hin =>
        simp only [Routine.safe_bind, safe_onMailbox]
        refine (ICloudMailbox.removeKeyword_safe G (hremove uid hin)
          (fun w' _ => quiet w' _ rfl)).mono ?_
        rintro r mailbox w' ⟨-, hw', ⟨rfl, w₁, hw₁, hc⟩ | ⟨text, rfl⟩⟩
        · simp only [Routine.after_ok, Routine.safe_bind, safe_print]
          refine (ih (fun u hu v hv => hremove u hu v (G.trans hw' hv))).mono ?_
          rintro r s' w'' ⟨lines, hout, hlines⟩
          refine ⟨.cleared uid keyword :: lines, ?_, ?_⟩
          · rw [hout, List.append_assoc, List.singleton_append]
          · have hline : RetryLines E G.grow keyword carrying w [.cleared uid keyword] w' := by
              refine ⟨hw', fun u k hu => ?_⟩
              cases List.mem_singleton.mp hu
              exact ⟨rfl, hin, w₁, w', hw₁, hc, G.refl w'⟩
            exact hline.append G hlines
        · exact ⟨[], (List.append_nil _).symm, hw', nofun⟩
      · simp only [Routine.safe_bind, safe_print, Routine.after_ok]
        refine (ih hremove).mono ?_
        rintro r s' w'' ⟨lines, hout, hlines⟩
        refine ⟨.doesNotCarry uid keyword :: lines, ?_, ?_⟩
        · rw [hout, List.append_assoc, List.singleton_append]
        · refine ⟨hlines.1, fun u k hu => ?_⟩
          rcases List.mem_cons.mp hu with hu | hu
          · cases hu
          · exact hlines.2 u k hu

/-- What stands behind the lines of a whole `retry`: a line that reports a message as cleared was
    printed after a listing had shown the message with the keyword and a later reply without it. -/
def Retried (E : Env Op Reply W) (grow : W → W → Prop) (keyword : String) (w : W)
    (lines : List Line) (w' : W) : Prop :=
  grow w w' ∧ ∀ uid keyword', Line.cleared uid keyword' ∈ lines → keyword' = keyword ∧
    ∃ flags w₁ w₂ w₃ w₄, grow w w₁ ∧ ICloudMailbox.Lists E grow w₁ flags w₂ ∧
      (∃ item ∈ flags, item.1 = uid ∧ hasFlag item.2 keyword = true) ∧ grow w₂ w₃ ∧
      ICloudMailbox.ShowsCleared E w₃ uid keyword w₄ ∧ grow w₄ w'

omit quiet in
theorem Retried.nothing {keyword : String} {w w' : W} {lines : List Line} (hw : G.grow w w')
    (h : ∀ uid keyword', Line.cleared uid keyword' ∉ lines) :
    Retried E G.grow keyword w lines w' :=
  ⟨hw, fun uid keyword' hline => absurd hline (h uid keyword')⟩

omit quiet in
theorem Retried.later {keyword : String} {w w' w'' : W} {lines : List Line}
    (h : Retried E G.grow keyword w lines w') (hw : G.grow w' w'') :
    Retried E G.grow keyword w lines w'' := by
  refine ⟨G.trans h.1 hw, fun uid keyword' hline => ?_⟩
  obtain ⟨rfl, flags, w₁, w₂, w₃, w₄, h₁, hl, hshown, h₂, hc, h₄⟩ := h.2 uid keyword' hline
  exact ⟨rfl, flags, w₁, w₂, w₃, w₄, h₁, hl, hshown, h₂, hc, G.trans h₄ hw⟩

/-- `retry` writes on nothing but the keyword it was asked to clear. -/
theorem cmdRetry_safe {k : Keywords} {args : RetryArgs} {s : CliState} {w : W}
    (hremove : ∀ uid w', G.grow w w' → D.guard w' (.removeFlags uid (retryKeyword k args))) :
    (cmdRetry k args).Safe E D (fun _ s' w' => ∃ lines, s'.output = s.output ++ lines ∧
      Retried E G.grow (retryKeyword k args) w lines w') s w := by
  unfold cmdRetry
  split
  · exact ⟨[.confirmFirst], rfl, .nothing G (G.refl w) (by simp)⟩
  · refine withMailbox_safe G quiet (Q := fun _ output w' => ∃ lines,
      output = s.output ++ lines ∧ Retried E G.grow (retryKeyword k args) w lines w') ?_ ?_ ?_ ?_
    · rintro r output w₁ w₂ hw₂ ⟨lines, hout, hlines⟩
      exact ⟨lines, hout, hlines.later G hw₂⟩
    · exact fun _ _ _ _ h => h
    · exact fun _ w' hw' => ⟨[], (List.append_nil _).symm, .nothing G hw' nofun⟩
    · intro s₁ w₁ hs₁ hw₁
      simp only [Routine.safe_bind, safe_onMailbox]
      refine (ICloudMailbox.searchKeyword_safe G quiet).mono ?_
      rintro r mailbox w₂ ⟨hw₂, hlists⟩
      have hgrown := G.trans hw₁ hw₂
      cases r with
      | error e => exact ⟨[], by simp [hs₁], .nothing G hgrown nofun⟩
      | ok carrying =>
          obtain ⟨flags, v, hv, hl, hshown⟩ := hlists carrying rfl
          simp only [Routine.after_ok]
          split
          · simp only [Routine.safe_bind, safe_print, Routine.after_ok, Routine.safe_pure]
            exact ⟨[.noneCarries _], by rw [hs₁], .nothing G hgrown (by simp)⟩
          · simp only [Routine.safe_bind]
            refine (retryAll_safe G quiet
              (fun uid _ v hv => hremove uid v (G.trans hgrown hv))).mono ?_
            rintro r s₃ w₃ ⟨lines, hout, hw₃, hlines⟩
            have hall : ∃ lines, s₃.output = s.output ++ lines ∧
                Retried E G.grow (retryKeyword k args) w lines w₃ := by
              refine ⟨lines, by rw [hout, hs₁], G.trans hgrown hw₃, fun uid keyword' hline => ?_⟩
              obtain ⟨rfl, hin, v₃, v₄, hv₃, hc, hv₄⟩ := hlines uid keyword' hline
              exact ⟨rfl, flags, v, w₂, v₃, v₄, G.trans hw₁ hv, hl, hshown uid hin, hv₃, hc, hv₄⟩
            cases r with
            | error e => exact hall
            | ok _ => exact hall

/-! ## `mark-failed` -/

theorem markAll_safe {k : Keywords} {flags : List (ℕ × List String)} {uids : List ℕ}
    {s : CliState} {w : W}
    (hstore : ∀ uid ∈ uids, hasFlag (flagsOf flags uid) k.inserted = false →
      ∀ w', G.grow w w' → D.guard w' (.addFlags uid k.failed)) :
    (markAll k flags uids).Safe E D (fun _ _ w' => G.grow w w') s w := by
  induction uids generalizing s w with
  | nil => exact G.refl w
  | cons uid rest ih =>
      unfold markAll
      split
      · simp only [Routine.safe_bind, safe_print, Routine.after_ok]
        refine (ih (fun u hu => hstore u (List.mem_cons_of_mem _ hu))).mono ?_
        intro r s' w' hw'
        cases r with
        | error e => exact hw'
        | ok _ => exact hw'
      · next hinserted =>
        simp only [Routine.safe_bind, safe_onMailbox]
        refine (ICloudMailbox.addKeyword_safe G
          (hstore uid List.mem_cons_self (Bool.eq_false_iff.mpr hinserted))
          (fun w' _ => quiet w' _ rfl)).mono ?_
        rintro r mailbox w' ⟨-, hw', ⟨rfl, -⟩ | ⟨text, rfl⟩⟩
        · simp only [Routine.after_ok, Routine.safe_bind, safe_print]
          refine (ih (fun u hu hins v hv =>
            hstore u (List.mem_cons_of_mem _ hu) hins v (G.trans hw' hv))).mono ?_
          exact fun r s' w'' hw'' => G.trans hw' hw''
        · exact hw'

/-- `mark-failed` writes the failed keyword on messages its listing shows without the inserted
    keyword. -/
theorem cmdMarkFailed_safe {k : Keywords} {uids : List ℕ} {s : CliState} {w : W}
    (hstore : ∀ flags w₁ w₂, G.grow w w₁ → ICloudMailbox.Lists E G.grow w₁ flags w₂ →
      ∀ uid ∈ uids, hasFlag (flagsOf flags uid) k.inserted = false →
      ∀ w', G.grow w₂ w' → D.guard w' (.addFlags uid k.failed)) :
    (cmdMarkFailed k uids).Safe E D (fun _ _ w' => G.grow w w') s w := by
  refine withMailbox_safe G quiet (Q := fun _ _ w' => G.grow w w')
    (fun hw h => G.trans h hw) (fun _ _ _ _ h => h) (fun _ _ h => h) ?_
  intro s₁ w₁ _ hw₁
  simp only [Routine.safe_bind]
  refine safe_looks G quiet ICloudMailbox.requireKeywords_glances.looks ?_
  intro r s₂ w₂ _ hw₂
  have hw₂ := G.trans hw₁ hw₂
  cases r with
  | error e => exact hw₂
  | ok _ =>
      simp only [Routine.after_ok, Routine.safe_bind, safe_onMailbox]
      refine (ICloudMailbox.inboxFlags_safe G quiet).mono ?_
      rintro r mailbox w₃ ⟨hw₃, hlists⟩
      have hw₃ := G.trans hw₂ hw₃
      cases r with
      | error e => exact hw₃
      | ok flags =>
          obtain ⟨w₄, hw₄, hl⟩ := hlists flags rfl
          simp only [Routine.after_ok, Routine.safe_bind]
          refine (markAll_safe G quiet (hstore flags w₄ w₃ (G.trans hw₂ hw₄) hl)).mono ?_
          intro r s₅ w₅ hw₅
          have hw₅ := G.trans hw₃ hw₅
          cases r with
          | error e => exact hw₅
          | ok refused => exact hw₅

end Cli

end MailTransporter
