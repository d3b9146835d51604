import RunnerManager.Platform.ServiceRequest
import Mathlib.Logic.Relation

/-!
# What the request exchange promises

The runs of `Step` from an empty directory. `Settled` is what the exchange is for; `settled_of_run`
proves it of every state that undisturbed steps reach, and `run_removes_another` is a run of the
single slot that breaks it: a withdrawal looks, and then removes whatever lies there.
-/

namespace RunnerManager.Platform.ServiceRequest

open RunnerManager.Text

variable {α : Type} {slots : Slots} {wait : Wait} {s t : Exchange α} {id : RequestId}

/-! ## Names -/

theorem Slots.request_file_inj {stem id other : List Char}
    (h : (Slots.perRequest stem).requestFile id = (Slots.perRequest stem).requestFile other) :
    id = other := by
  simpa [Slots.requestFile] using h

theorem Slots.result_file_inj {stem id other : List Char}
    (h : (Slots.perRequest stem).resultFile id = (Slots.perRequest stem).resultFile other) :
    id = other := by
  simpa [Slots.resultFile] using h

theorem entry_id_of_name {stem id name : List Char} (h : entryId stem name = some id) :
    name = (Slots.perRequest stem).requestFile id := by
  simp only [entryId, afterStem, Option.bind_eq_some_iff, List.dropPrefix?_eq_some_iff,
    List.dropSuffix?_eq_some_iff, beq_iff_eq] at h
  obtain ⟨rest, ⟨dotted, ⟨front, rfl, hfront⟩, dot, rfl, hdot⟩, back, rfl, hback⟩ := h
  subst hfront hdot hback
  simp [Slots.requestFile]

theorem check_id (id : RequestId) : checkId id.val = some id := by
  simp [checkId, id.property]

theorem front_bytes_of_short {n : Nat} {text : List Char} (h : byteLen text ≤ n) :
    frontBytes n text = some text := by
  induction text generalizing n with
  | nil => cases n <;> rfl
  | cons c rest ih =>
    simp only [byteLen, List.map_cons, List.sum_cons] at h
    obtain _ | n := n
    · have := c.utf8Size_pos
      omega
    · have hrest : byteLen rest ≤ n + 1 - c.utf8Size := by
        simp only [byteLen]
        omega
      rw [frontBytes, if_pos (by omega), ih hrest, Option.map_some]

theorem id_visible {c : Char} (hc : (isAsciiAlphanumeric c || c == '-' || c == '.' || c == '_')
    = true) : isWhitespace c = false := by
  have hascii : c.toNat < 128 := by
    simp only [Bool.or_eq_true, beq_iff_eq] at hc
    obtain ((hc | rfl) | rfl) | rfl := hc
    · exact alphanumeric_ascii hc
    all_goals decide
  exact ascii_induction (P := fun c ↦ (isAsciiAlphanumeric c || c == '-' || c == '.' || c == '_')
    = true → isWhitespace c = false) (by decide) hascii hc

theorem read_request (id : RequestId) : readRequest id.val = some id := by
  have hvalid := id.property
  simp only [validId, Bool.and_eq_true, decide_eq_true_eq, List.all_eq_true] at hvalid
  have htrim : trim id.val = id.val := trim_eq_self fun c hc ↦ id_visible (hvalid.2 c hc)
  have hfront : frontBytes (maxId + 2) id.val = some id.val :=
    front_bytes_of_short (hvalid.1.2.trans (by decide))
  simp [readRequest, hfront, htrim, id.property]

/-! ## The promise, and what disturbs it -/

namespace Asker

/-- The request was not left, or was taken back. -/
def unsent : Asker α → Prop
  | idle | returned (.error (.notSent _)) | returned (.error (.notTaken _)) => True
  | _ => False

/-- The request was left and the asker still looks. -/
def waits : Asker α → Prop
  | sent | looking _ | pending _ | withdrawing | gone | waiting _ | missed _ => True
  | _ => False

/-- The answer an asker read. -/
def told : Asker α → Option (Except String α)
  | collecting outcome => some outcome
  | returned (.ok value) => some (.ok value)
  | returned (.error (.refused detail)) => some (.error detail)
  | _ => none

@[simp]
theorem told_of_outcome (outcome : Except String α) : (ofOutcome outcome).told = some outcome := by
  cases outcome <;> rfl

end Asker

/-- What the exchange promises. -/
structure Settled (slots : Slots) (s : Exchange α) : Prop where
  once : s.taken.Nodup
  answered : ∀ id outcome, s.asker id = .ofOutcome outcome →
    ∃ late, s.answered id = some (outcome, late)
  byService : ∀ text returns, (text, .service returns) ∈ s.removals →
    ∃ id : RequestId, returns = some id ∧ text = id.val
  byAsker : ∀ text id, (text, .asker id) ∈ s.removals → text = id.val
  notTaken : ∀ id seconds, s.asker id = .returned (.error (.notTaken seconds)) → id ∉ s.taken
  received : ∀ stem, slots = .perRequest stem → ∀ id result outcome,
    s.asker id = .returned result → s.answered id = some (outcome, false) →
    result = outcome.mapError .refused

/-- No party acts between another's look at a file and what that party does about it: no request
is left in the single slot while the service stands between its read and its removal or an asker
between its last look and its withdrawal, and the slot an asker looked at still holds its request
when its patience runs out; an asker gives up only on an answer that is not there; the sweep takes
no answer its asker still waits for; and neither the removal of a withdrawal nor the read of the
single slot fails. -/
def Undisturbed (slots : Slots) (wait : Wait) (s : Exchange α) : Event α → Prop
  | .leave _ => ∀ request result, slots = .one request result →
      (∀ returns, s.service ≠ .read returns) ∧ ∀ id, s.asker id ≠ .withdrawing
  | .patience id => ∀ started, s.asker id = .pending started → wait.taken ≤ s.now - started →
      s.requests (slots.requestFile id.val) = none ∨ s.Held slots id
  | .expire id => ∀ stem taken, slots = .perRequest stem → s.asker id = .missed taken →
      wait.finished ≤ s.now - taken → s.answerTo slots id = none
  | .entry => ∀ stem id rest text outcome written, slots = .perRequest stem →
      s.service = .sweeping (slots.resultFile id.val :: rest) →
      s.results (slots.resultFile id.val) = some (text, outcome, written) →
      uncollected ≤ s.now - written → ¬ (s.asker id).waits
  | .withdrawFails _ | .readSlotFails => False
  | _ => True

def UndisturbedStep (slots : Slots) (wait : Wait) (s t : Exchange α) : Prop :=
  ∃ event, Undisturbed slots wait s event ∧ Step slots wait s event t

/-! ## What undisturbed steps keep -/

/-- What the files, the service and the records say of each other. -/
structure Desk (slots : Slots) (s : Exchange α) : Prop where
  own : ∀ name text, s.requests name = some text →
    ∃ id : RequestId, name = slots.requestFile id.val ∧ text = id.val
  fresh : ∀ id, s.Held slots id → id ∉ s.taken
  once : s.taken.Nodup
  answered : ∀ id, s.answered id ≠ none → id ∈ s.taken
  results : ∀ name text outcome written, s.results name = some (text, outcome, written) →
    ∃ (id : RequestId) (late : Bool), name = slots.resultFile id.val ∧ text = id.val ∧
      s.answered id = some (outcome, late)
  read : ∀ request result returns text, slots = .one request result →
    s.service = .read returns → s.requests request = some text → readRequest text = returns
  byService : ∀ text returns, (text, .service returns) ∈ s.removals →
    ∃ id : RequestId, returns = some id ∧ text = id.val
  byAsker : ∀ text id, (text, .asker id) ∈ s.removals → text = id.val

/-- What they say of an asker that stands somewhere. -/
structure Fits (slots : Slots) (s : Exchange α) (id : RequestId) (phase : Asker α) : Prop where
  unsent : phase.unsent → ¬ s.Held slots id ∧ id ∉ s.taken
  withdrawing : phase = .withdrawing →
    s.requests (slots.requestFile id.val) = none ∨ s.Held slots id
  waits : ∀ stem outcome late, slots = .perRequest stem → phase.waits →
    s.answered id = some (outcome, late) → s.answerTo slots id = some outcome
  told : ∀ outcome, phase.told = some outcome → ∃ late, s.answered id = some (outcome, late)
  noAnswer : ∀ stem seconds outcome, slots = .perRequest stem →
    phase = .returned (.error (.noAnswer seconds)) → s.answered id ≠ some (outcome, false)

/-- What undisturbed steps keep. -/
structure Kept (slots : Slots) (s : Exchange α) : Prop where
  desk : Desk slots s
  fits : ∀ id, Fits slots s id (s.asker id)

theorem Kept.start : Kept slots (Exchange.start : Exchange α) where
  desk := by constructor <;> simp [Exchange.start, Exchange.Held]
  fits id := by constructor <;> simp [Exchange.start, Exchange.Held, Asker.waits, Asker.told]

theorem Kept.settled (h : Kept slots s) : Settled slots s where
  once := h.desk.once
  answered id outcome hasker := (h.fits id).told outcome (by rw [hasker, Asker.told_of_outcome])
  byService := h.desk.byService
  byAsker := h.desk.byAsker
  notTaken id seconds hasker := ((h.fits id).unsent (by rw [hasker]; trivial)).2
  received stem hslots id result outcome hasker hanswer := by
    have htaken : id ∈ s.taken := h.desk.answered id (by simp [hanswer])
    have hsent : ¬ (s.asker id).unsent := fun hunsent ↦ ((h.fits id).unsent hunsent).2 htaken
    have hsame : ∀ told, (s.asker id).told = some told → told = outcome := by
      intro told htold
      obtain ⟨late, hlate⟩ := (h.fits id).told told htold
      simp_all
    rw [hasker] at hsent hsame
    match result with
    | .ok value =>
      rw [← hsame _ rfl]
      rfl
    | .error (.refused detail) =>
      rw [← hsame _ rfl]
      rfl
    | .error (.notSent detail) => exact absurd trivial hsent
    | .error (.notTaken seconds) => exact absurd trivial hsent
    | .error (.noAnswer seconds) =>
      exact absurd hanswer ((h.fits id).noAnswer stem seconds outcome hslots hasker)

/-! ## One party at a time -/

theorem Kept.of_move {next : Asker α} (hdesk : Desk slots s)
    (hothers : ∀ other, other ≠ id → Fits slots s other (s.asker other))
    (hfits : Fits slots s id next) : Kept slots (s.move id next) where
  desk := { hdesk with }
  fits other := by
    have hother : Fits slots s other ((s.move id next).asker other) := by
      by_cases hother : other = id
      · subst hother
        simpa [Exchange.move] using hfits
      · simpa [Exchange.move, hother] using hothers other hother
    exact { hother with }

theorem Kept.move (h : Kept slots s) {next : Asker α} (hfits : Fits slots s id next) :
    Kept slots (s.move id next) :=
  .of_move h.desk (fun other _ ↦ h.fits other) hfits

theorem Fits.still_waits {now next : Asker α} (h : Fits slots s id now) (hnow : now.waits)
    (hnext : next.waits) (hwithdraw : next ≠ .withdrawing) : Fits slots s id next where
  unsent hunsent := by cases next <;> simp_all [Asker.waits, Asker.unsent]
  withdrawing hnext := absurd hnext hwithdraw
  waits stem outcome late hslots _ := h.waits stem outcome late hslots hnow
  told outcome htold := by cases next <;> simp_all [Asker.waits, Asker.told]
  noAnswer stem seconds outcome hslots hgave := by simp_all [Asker.waits]

theorem Kept.serve (h : Kept slots s) {next : Service}
    (hread : ∀ request result returns text, slots = .one request result →
      next = .read returns → s.requests request = some text → readRequest text = returns) :
    Kept slots { s with service := next } where
  desk := { h.desk with read := hread }
  fits other := { h.fits other with }

theorem Kept.leave (h : Kept slots s) (hat : s.asker id = .idle)
    (hcalm : ∀ request result, slots = .one request result →
      (∀ returns, s.service ≠ .read returns) ∧ ∀ other, s.asker other ≠ .withdrawing) :
    Kept slots ({ s with
      requests := Function.update s.requests (slots.requestFile id.val) (some id.val) }.move id
        .sent) := by
  set t : Exchange α := { s with
    requests := Function.update s.requests (slots.requestFile id.val) (some id.val) } with ht
  have hunsent := (h.fits id).unsent (by rw [hat]; trivial)
  have hheld : ∀ other, t.Held slots other → other = id ∨ s.Held slots other := by
    intro other hother
    by_cases hfile : slots.requestFile other.val = slots.requestFile id.val
    · left
      simpa [ht, Exchange.Held, hfile, Subtype.ext_iff, eq_comm] using hother
    · right
      simpa [ht, Exchange.Held, hfile] using hother
  refine .of_move ?_ (fun other hother ↦ ?_) ?_
  · exact { h.desk with
      own := by
        intro name text hthere
        by_cases hfile : name = slots.requestFile id.val
        · subst hfile
          exact ⟨id, rfl, by simpa [ht, eq_comm] using hthere⟩
        · exact h.desk.own name text (by simpa [ht, hfile] using hthere)
      fresh := by
        intro other hother
        obtain rfl | hother := hheld other hother
        · exact hunsent.2
        · exact h.desk.fresh other hother
      read := by
        intro request result returns text hslots hservice
        exact absurd hservice ((hcalm request result hslots).1 returns) }
  · exact { h.fits other with
      unsent := by
        intro hphase
        obtain ⟨hfile, htaken⟩ := (h.fits other).unsent hphase
        exact ⟨fun hnow ↦ (hheld other hnow).elim hother hfile, htaken⟩
      withdrawing := by
        intro hphase
        match slots with
        | .one request result => exact absurd hphase ((hcalm request result rfl).2 other)
        | .perRequest stem =>
          have hfile : (Slots.perRequest stem).requestFile other.val
              ≠ (Slots.perRequest stem).requestFile id.val :=
            fun hfile ↦ hother (Subtype.ext (Slots.request_file_inj hfile))
          simpa [ht, Exchange.Held, hfile] using (h.fits other).withdrawing hphase }
  · have hanswer : s.answered id = none :=
      by_contra fun hanswer ↦ hunsent.2 (h.desk.answered id hanswer)
    exact {
      unsent := (nomatch ·)
      withdrawing := (nomatch ·)
      waits := fun _ _ _ _ _ hanswered ↦ absurd (hanswer.symm.trans hanswered) nofun
      told := fun _ htold ↦ nomatch htold
      noAnswer := fun _ _ _ _ hphase ↦ nomatch hphase }

theorem Fits.of_erase {file : List Char} {requests : List Char → Option (List Char)}
    {removals : List (List Char × Remover)} {phase : Asker α}
    (hrequests : requests = Function.update s.requests file none) (h : Fits slots s id phase) :
    Fits slots { s with requests := requests, removals := removals } id phase where
  unsent hphase := by
    obtain ⟨hfile, htaken⟩ := h.unsent hphase
    refine ⟨fun hnow ↦ hfile ?_, htaken⟩
    by_cases hname : slots.requestFile id.val = file <;>
      simp_all [Exchange.Held]
  withdrawing hphase := by
    by_cases hname : slots.requestFile id.val = file
    · simp_all
    · simpa [hrequests, hname, Exchange.Held] using h.withdrawing hphase
  waits := h.waits
  told := h.told
  noAnswer := h.noAnswer

/-- The files and the records once a request is gone and its removal is noted. -/
theorem Desk.of_erase {file text : List Char} {remover : Remover} (h : Desk slots s)
    (hremoved : match remover with
      | .service returns => ∃ id : RequestId, returns = some id ∧ text = id.val
      | .asker id => text = id.val) :
    Desk slots { s with
      requests := Function.update s.requests file none
      removals := s.removals ++ [(text, remover)] } := by
  have hshrunk : ∀ name text, Function.update s.requests file none name = some text →
      s.requests name = some text := by
    intro name text hthere
    by_cases hname : name = file
    · simp [hname] at hthere
    · simpa [hname] using hthere
  exact { h with
    own := fun name text hthere ↦ h.own name text (hshrunk _ _ hthere)
    fresh := fun other hother ↦ h.fresh other (hshrunk _ _ hother)
    read := fun request result returns text hslots hservice hthere ↦
      h.read request result returns text hslots hservice (hshrunk _ _ hthere)
    byService := by
      intro other returns hmem
      rw [List.mem_append, List.mem_singleton] at hmem
      obtain hmem | hmem := hmem
      · exact h.byService other returns hmem
      · obtain ⟨rfl, rfl⟩ := Prod.ext_iff.mp hmem
        exact hremoved
    byAsker := by
      intro other id hmem
      rw [List.mem_append, List.mem_singleton] at hmem
      obtain hmem | hmem := hmem
      · exact h.byAsker other id hmem
      · obtain ⟨rfl, rfl⟩ := Prod.ext_iff.mp hmem
        exact hremoved }

theorem Kept.withdraw (h : Kept slots s) {text : List Char} (hat : s.asker id = .withdrawing)
    (hthere : s.requests (slots.requestFile id.val) = some text) :
    Kept slots ({ s with
      requests := Function.update s.requests (slots.requestFile id.val) none
      removals := s.removals ++ [(text, Remover.asker id)] }.move id
        (.returned (.error (.notTaken (wait.taken / 10 ^ 9))))) := by
  have hheld : s.Held slots id := by
    obtain hgone | hheld := (h.fits id).withdrawing hat
    · rw [hgone] at hthere
      exact nomatch hthere
    · exact hheld
  have htext : text = id.val := Option.some.inj (hthere.symm.trans hheld)
  refine .of_move (h.desk.of_erase htext) (fun other _ ↦ (h.fits other).of_erase rfl) ?_
  exact {
    unsent := fun _ ↦ ⟨by simp [Exchange.Held], h.desk.fresh id hheld⟩
    withdrawing := (nomatch ·)
    waits := fun _ _ _ _ hwaits ↦ hwaits.elim
    told := fun _ htold ↦ nomatch htold
    noAnswer := fun _ _ _ _ hphase ↦ nomatch hphase }

theorem Kept.take (h : Kept slots s) {file : List Char} (hheld : s.requests file = some id.val)
    (hfile : file = slots.requestFile id.val) : Kept slots (s.take file id.val (some id)) where
  desk := by
    have hplace : s.Held slots id := by rwa [Exchange.Held, ← hfile]
    have hfresh : id ∉ s.taken := h.desk.fresh id hplace
    have herased : Desk slots { s with
        requests := Function.update s.requests file none
        removals := s.removals ++ [(id.val, .service (some id))] } :=
      h.desk.of_erase ⟨id, rfl, rfl⟩
    exact { herased with
      fresh := by
        intro other hother
        have hne : other ≠ id := by
          rintro rfl
          simp [Exchange.take, Exchange.Held, hfile] at hother
        simpa [Exchange.take, hne] using herased.fresh other hother
      once := by
        show (s.taken ++ [id]).Nodup
        exact List.nodup_append.mpr ⟨h.desk.once, List.nodup_singleton id, fun a ha b hb ↦ by
          rintro rfl
          exact hfresh (List.mem_singleton.mp hb ▸ ha)⟩
      answered := fun other hother ↦ List.mem_append_left _ (h.desk.answered other hother) }
  fits other := by
    have herased : Fits slots { s with
        requests := Function.update s.requests file none
        removals := s.removals ++ [(id.val, .service (some id))] } other (s.asker other) :=
      (h.fits other).of_erase rfl
    exact { herased with
      unsent := by
        intro hphase
        have hne : other ≠ id := by
          rintro rfl
          exact ((h.fits other).unsent hphase).1 (by rwa [Exchange.Held, ← hfile])
        refine ⟨(herased.unsent hphase).1, ?_⟩
        simpa [Exchange.take, hne] using (herased.unsent hphase).2 }

theorem Desk.of_results_erase (h : Desk slots s) (file : List Char) :
    Desk slots { s with results := Function.update s.results file none } :=
  { h with
    results := by
      intro name text outcome written hthere
      by_cases hname : name = file
      · simp [hname] at hthere
      · exact h.results name text outcome written (by simpa [hname] using hthere) }

theorem Fits.of_results_erase {file : List Char} {phase : Asker α} (h : Fits slots s id phase)
    (hother : ∀ stem, slots = .perRequest stem → phase.waits → slots.resultFile id.val ≠ file) :
    Fits slots { s with results := Function.update s.results file none } id phase :=
  { h with
    waits := by
      intro stem outcome late hslots hwaits hanswered
      have hanswer := h.waits stem outcome late hslots hwaits hanswered
      simpa [Exchange.answerTo, hother stem hslots hwaits] using hanswer }

theorem Fits.of_outcome {outcome : Except String α}
    (hanswered : ∃ late, s.answered id = some (outcome, late)) :
    Fits slots s id (.ofOutcome outcome) where
  unsent hphase := by cases outcome <;> exact hphase.elim
  withdrawing hphase := by cases outcome <;> exact nomatch hphase
  waits stem told late hslots hwaits := by cases outcome <;> exact hwaits.elim
  told told htold := by
    rw [Asker.told_of_outcome] at htold
    rwa [← Option.some.inj htold]
  noAnswer stem seconds told hslots hphase := by cases outcome <;> exact nomatch hphase

theorem Kept.collect (h : Kept slots s) {outcome : Except String α}
    (hat : s.asker id = .collecting outcome) :
    Kept slots ({ s with
      results := Function.update s.results (slots.resultFile id.val) none }.move id
        (.ofOutcome outcome)) := by
  refine .of_move (h.desk.of_results_erase _) (fun other hother ↦ ?_) (.of_outcome ?_)
  · refine (h.fits other).of_results_erase fun stem hslots _ hfile ↦ hother ?_
    subst hslots
    exact Subtype.ext (Slots.result_file_inj hfile)
  · exact (h.fits id).told outcome (by rw [hat]; rfl)

/-- The service answers a request it took. -/
theorem Kept.answer (h : Kept slots s) (outcome : Except String α) (htaken : id ∈ s.taken)
    (hfirst : s.answered id = none) :
    Kept slots { s with
      results := Function.update s.results (slots.resultFile id.val)
        (some (id.val, outcome, s.now))
      answered := Function.update s.answered id (some (outcome, (s.asker id).done)) } where
  desk := { h.desk with
    answered := by
      intro other hanswered
      by_cases hother : other = id
      · rwa [hother]
      · exact h.desk.answered other (by simpa [hother] using hanswered)
    results := by
      intro name text told written hthere
      by_cases hname : name = slots.resultFile id.val
      · subst hname
        simp only [Function.update_self, Option.some.injEq, Prod.mk.injEq] at hthere
        obtain ⟨rfl, rfl, rfl⟩ := hthere
        exact ⟨id, (s.asker id).done, rfl, rfl, by simp⟩
      · obtain ⟨other, late, hfile, htext, hanswered⟩ :=
          h.desk.results name text told written (by simpa [hname] using hthere)
        have hother : other ≠ id := by
          rintro rfl
          exact hname hfile
        exact ⟨other, late, hfile, htext, by simpa [hother] using hanswered⟩ }
  fits other := by
    by_cases hother : other = id
    · subst hother
      exact { h.fits other with
        waits := by
          intro stem told late hslots hwaits hanswered
          obtain ⟨rfl, rfl⟩ : outcome = told ∧ (s.asker other).done = late := by
            simpa using hanswered
          simp [Exchange.answerTo]
        told := by
          intro told htold
          obtain ⟨late, hanswered⟩ := (h.fits other).told told htold
          exact absurd (hfirst.symm.trans hanswered) nofun
        noAnswer := by
          intro stem seconds told hslots hphase hanswered
          simp [Asker.done, show s.asker other = _ from hphase] at hanswered }
    · exact { h.fits other with
        waits := by
          intro stem told late hslots hwaits hanswered
          have hfile : slots.resultFile other.val ≠ slots.resultFile id.val := by
            subst hslots
            exact fun hfile ↦ hother (Subtype.ext (Slots.result_file_inj hfile))
          have hanswer := (h.fits other).waits stem told late hslots hwaits
            (by simpa [hother] using hanswered)
          simpa [Exchange.answerTo, hfile] using hanswer
        told := by
          intro told htold
          simpa [hother] using (h.fits other).told told htold
        noAnswer := by
          intro stem seconds told hslots hphase
          simpa [hother] using (h.fits other).noAnswer stem seconds told hslots hphase }

theorem Desk.answered_of_read (h : Desk slots s) {outcome : Except String α}
    (hanswer : s.answerTo slots id = some outcome) :
    ∃ late, s.answered id = some (outcome, late) := by
  unfold Exchange.answerTo at hanswer
  split at hanswer
  · next text told written hthere =>
    split_ifs at hanswer with htext
    obtain ⟨other, late, -, hother, hanswered⟩ := h.results _ _ _ _ hthere
    obtain rfl : other = id := Subtype.ext (hother.symm.trans htext)
    exact ⟨late, Option.some.inj hanswer ▸ hanswered⟩
  · exact nomatch hanswer

theorem Kept.step (h : Kept slots s) {event : Event α} (hcalm : Undisturbed slots wait s event)
    (hstep : Step slots wait s event t) : Kept slots t := by
  cases hstep with
  | tick passed => exact ⟨{ h.desk with }, fun other ↦ { h.fits other with }⟩
  | leave hat => exact h.leave hat hcalm
  | @leaveFails id detail hat =>
    have hunsent := (h.fits id).unsent (by rw [hat]; trivial)
    exact h.move {
      unsent := fun _ ↦ hunsent
      withdrawing := (nomatch ·)
      waits := fun _ _ _ _ hwaits ↦ hwaits.elim
      told := fun _ htold ↦ nomatch htold
      noAnswer := fun _ _ _ _ hphase ↦ nomatch hphase }
  | @start id hat =>
    exact h.move ((h.fits id).still_waits (by rw [hat]; trivial) trivial nofun)
  | @look id started hat =>
    refine h.move ((h.fits id).still_waits (by rw [hat]; trivial) ?_ ?_) <;> split <;>
      first | trivial | exact nofun
  | @lookFails id started hat =>
    exact h.move ((h.fits id).still_waits (by rw [hat]; trivial) trivial nofun)
  | @patience id started hat =>
    split_ifs with hout
    · exact h.move {
        unsent := (nomatch ·)
        withdrawing := fun _ ↦ hcalm started hat hout
        waits := fun stem outcome late hslots _ ↦
          (h.fits id).waits stem outcome late hslots (by rw [hat]; trivial)
        told := fun _ htold ↦ nomatch htold
        noAnswer := fun _ _ _ _ hphase ↦ nomatch hphase }
    · exact h.move ((h.fits id).still_waits (by rw [hat]; trivial) trivial nofun)
  | withdraw hat hthere => exact h.withdraw hat hthere
  | @withdrawGone id hat hgone =>
    exact h.move ((h.fits id).still_waits (by rw [hat]; trivial) trivial nofun)
  | withdrawFails hat => exact hcalm.elim
  | @settle id hat =>
    exact h.move ((h.fits id).still_waits (by rw [hat]; trivial) trivial nofun)
  | @readAnswer id taken outcome hat hanswer =>
    have hanswered := h.desk.answered_of_read hanswer
    cases slots with
    | one request result => exact h.move (.of_outcome hanswered)
    | perRequest stem =>
      exact h.move {
        unsent := (nomatch ·)
        withdrawing := (nomatch ·)
        waits := fun _ _ _ _ hwaits ↦ hwaits.elim
        told := fun told htold ↦ Option.some.inj htold ▸ hanswered
        noAnswer := fun _ _ _ _ hphase ↦ nomatch hphase }
  | @readNone id taken hat hanswer =>
    exact h.move ((h.fits id).still_waits (by rw [hat]; trivial) trivial nofun)
  | @readAnswerFails id taken hat =>
    exact h.move ((h.fits id).still_waits (by rw [hat]; trivial) trivial nofun)
  | @expire id taken hat =>
    split_ifs with hout
    · exact h.move {
        unsent := (nomatch ·)
        withdrawing := (nomatch ·)
        waits := fun _ _ _ _ hwaits ↦ hwaits.elim
        told := fun _ htold ↦ nomatch htold
        noAnswer := by
          intro stem seconds outcome hslots _ hanswered
          have hthere := (h.fits id).waits stem outcome false hslots (by rw [hat]; trivial)
            hanswered
          exact absurd ((hcalm stem taken hslots hat hout).symm.trans hthere) nofun }
    · exact h.move ((h.fits id).still_waits (by rw [hat]; trivial) trivial nofun)
  | collect hat => exact h.collect hat
  | @collectFails id outcome hat =>
    exact h.move (.of_outcome ((h.fits id).told outcome (by rw [hat]; rfl)))
  | find hslots hat => exact h.serve fun _ _ _ _ _ hread ↦ by split at hread <;> exact nomatch hread
  | @readSlot request result hslots hat =>
    refine h.serve fun other _ returns text hother hread hthere ↦ ?_
    obtain ⟨rfl, -⟩ : request = other ∧ _ := by simpa [hslots] using hother
    simpa [hthere] using hread
  | readSlotFails hslots hat => exact hcalm.elim
  | @removeSlot request result text returns hslots hat hthere =>
    obtain ⟨id, hfile, rfl⟩ := h.desk.own _ _ hthere
    obtain rfl : some id = returns :=
      (read_request id).symm.trans (h.desk.read _ _ _ _ hslots hat hthere)
    exact (h.take hthere hfile).serve fun _ _ _ _ _ hread ↦ nomatch hread
  | removeSlotGone hslots hat hgone => exact h.serve fun _ _ _ _ _ hread ↦ nomatch hread
  | removeSlotFails hslots hat => exact h.serve fun _ _ _ _ _ hread ↦ nomatch hread
  | list names hslots hat => exact h.serve fun _ _ _ _ _ hread ↦ nomatch hread
  | @entryTakes stem name id text rest hslots hat hid hthere =>
    obtain ⟨own, hfile, rfl⟩ := h.desk.own _ _ hthere
    obtain rfl : own.val = id := by
      subst hslots
      exact Slots.request_file_inj (hfile.symm.trans (entry_id_of_name hid))
    rw [check_id]
    exact (h.take hthere hfile).serve fun _ _ _ _ _ hread ↦ nomatch hread
  | @entrySweeps stem name text rest outcome written hslots hat hid hresult hthere hold =>
    have hswept : Kept slots { s with results := Function.update s.results name none } := {
      desk := h.desk.of_results_erase name
      fits := fun other ↦ by
        refine (h.fits other).of_results_erase fun _ _ hwaits hname ↦ ?_
        subst hname
        exact hcalm stem other rest text outcome written hslots hat hthere hold hwaits }
    exact hswept.serve fun _ _ _ _ _ hread ↦ nomatch hread
  | entrySkips hslots hat hskips => exact h.serve fun _ _ _ _ _ hread ↦ nomatch hread
  | entryFails hslots hat => exact h.serve fun _ _ _ _ _ hread ↦ nomatch hread
  | entriesEnd hslots hat => exact h.serve fun _ _ _ _ _ hread ↦ nomatch hread
  | answer outcome hat htaken hfirst => exact h.answer outcome htaken hfirst

/-- Any number of askers and one service keep the promise, in any order of their steps, while
nothing disturbs them. -/
theorem settled_of_run (h : Relation.ReflTransGen (UndisturbedStep slots wait) .start s) :
    Settled slots s := by
  have hkept : Kept slots s := by
    induction h with
    | refl => exact .start
    | tail _ hstep ih =>
      obtain ⟨event, hcalm, hstep⟩ := hstep
      exact ih.step hcalm hstep
  exact hkept.settled

theorem run_takes (request result : List Char) (wait : Wait) (id : RequestId) :
    ∃ s : Exchange α, Relation.ReflTransGen (UndisturbedStep (.one request result) wait) .start s ∧
      s.taken = [id] := by
  let left : Exchange α := { Exchange.start with
    requests := Function.update (fun _ ↦ none) request (some id.val) }.move id .sent
  have hheld : left.requests request = some id.val := by simp [left, Exchange.move]
  have hleave : UndisturbedStep (.one request result) wait .start left :=
    ⟨.leave id, fun _ _ _ ↦ ⟨nofun, nofun⟩, .leave rfl⟩
  have hfind : UndisturbedStep (.one request result) wait left { left with service := .found } :=
    ⟨.find, trivial, by simpa [hheld] using @Step.find α _ wait left request result rfl rfl⟩
  have hread : UndisturbedStep (.one request result) wait { left with service := .found }
      { left with service := .read (some id) } :=
    ⟨.readSlot, trivial, by
      simpa [hheld, read_request] using
        @Step.readSlot α _ wait { left with service := .found } request result rfl rfl⟩
  have hremove : UndisturbedStep (.one request result) wait { left with service := .read (some id) }
      { Exchange.take { left with service := .read (some id) } request id.val (some id) with
        service := .idle } :=
    ⟨.removeSlot, trivial, .removeSlot rfl rfl hheld⟩
  exact ⟨_, .tail (.tail (.tail (.single hleave) hfind) hread) hremove, rfl⟩

theorem run_removes_another (request result : List Char) (wait : Wait) {first second : RequestId}
    (hne : first ≠ second) :
    ∃ s : Exchange α, Relation.ReflTransGen
      (fun s t ↦ ∃ event, Step (.one request result) wait s event t) .start s ∧
      (second.val, .asker first) ∈ s.removals := by
  let left (phase : Asker α) : Exchange α := { Exchange.start with
    asker := Function.update (fun _ ↦ .idle) first phase
    requests := Function.update (fun _ ↦ none) request (some first.val) }
  let past (phase : Asker α) : Exchange α := {
    Exchange.start with
    now := wait.taken
    asker := Function.update (Function.update (fun _ ↦ .idle) first phase) second .sent
    requests := Function.update (fun _ ↦ none) request (some second.val) }
  have hleft (phase : Asker α) : (left phase).asker first = phase := by simp [left]
  have hpast (phase : Asker α) : (past phase).asker first = phase := by simp [past, hne]
  have hfirst (phase next : Asker α) : (left phase).move first next = left next := by
    simp [left, Exchange.move]
  have hsecond (phase next : Asker α) : (past phase).move first next = past next := by
    simp [past, Exchange.move, Function.update_comm hne.symm]
  have hleave : Step (.one request result) wait .start (.leave first) (left .sent) := .leave rfl
  have hstart : Step (.one request result) wait (left .sent) (.start first) (left (.looking 0)) :=
    hfirst .sent (.looking 0) ▸ .start (hleft _)
  have hlook : Step (.one request result) wait (left (.looking 0)) (.look first)
      (left (.pending 0)) := by
    have hseen : (left (.looking 0)).pendingNow (.one request result) first = true := by
      simp [left, Exchange.pendingNow, read_request]
    simpa [hseen, hfirst] using
      @Step.look α (.one request result) wait (left (.looking 0)) first 0 (hleft _)
  have htick : Step (.one request result) wait (left (.pending 0)) (.tick wait.taken)
      { left (.pending 0) with now := wait.taken } := by
    simpa [left, Exchange.start] using
      @Step.tick α (.one request result) wait (left (.pending 0)) wait.taken
  have hreplace : Step (.one request result) wait { left (.pending 0) with now := wait.taken }
      (.leave second) (past (.pending 0)) := by
    have hidle : (left (.pending 0)).asker second = .idle := by simp [left, hne.symm]
    simpa [left, past, Exchange.move, Slots.requestFile] using
      @Step.leave α (.one request result) wait { left (.pending 0) with now := wait.taken } second
        hidle
  have hpatience : Step (.one request result) wait (past (.pending 0)) (.patience first)
      (past .withdrawing) := by
    simpa [hsecond, show (past (.pending 0)).now = wait.taken from rfl] using
      @Step.patience α (.one request result) wait (past (.pending 0)) first 0 (hpast _)
  have hwithdraw := @Step.withdraw α (.one request result) wait (past .withdrawing) first second.val
    (hpast _) (by simp [past, Slots.requestFile])
  refine ⟨_, .tail (.tail (.tail (.tail (.tail (.tail (.single ⟨_, hleave⟩) ⟨_, hstart⟩)
    ⟨_, hlook⟩) ⟨_, htick⟩) ⟨_, hreplace⟩) ⟨_, hpatience⟩) ⟨_, hwithdraw⟩, ?_⟩
  exact List.mem_append_right _ (List.mem_singleton_self _)

/-- A request is left in the single slot and taken from it. -/
theorem settled_of_run_taken :
    ∃ s : Exchange Unit, s.taken ≠ [] ∧
      Settled (.one "cache-prune.request".toList "cache-prune.result".toList) s := by
  let id : RequestId := ⟨"20260801T093000.000000000Z-71-0".toList, by decide⟩
  obtain ⟨s, hrun, htaken⟩ := @run_takes Unit "cache-prune.request".toList
    "cache-prune.result".toList ⟨8 * 10 ^ 9, 90 * 10 ^ 9⟩ id
  exact ⟨s, by simp [htaken], settled_of_run hrun⟩

/-- Two commands ask for a prune. The second leaves its request over that of the first, whose
patience has run out after its last look. -/
theorem withdrawal_takes_another :
    ∃ (first second : RequestId) (s : Exchange Unit), first ≠ second ∧
      Relation.ReflTransGen (fun s t ↦ ∃ event,
        Step (.one "cache-prune.request".toList "cache-prune.result".toList)
          ⟨8 * 10 ^ 9, 90 * 10 ^ 9⟩ s event t) .start s ∧
      (second.val, .asker first) ∈ s.removals ∧
      ¬ Settled (.one "cache-prune.request".toList "cache-prune.result".toList) s := by
  let first : RequestId := ⟨"20260801T093000.000000000Z-71-0".toList, by decide⟩
  let second : RequestId := ⟨"20260801T093008.000000000Z-72-0".toList, by decide⟩
  have hne : first ≠ second := by decide
  obtain ⟨s, hrun, hremoved⟩ := @run_removes_another Unit "cache-prune.request".toList
    "cache-prune.result".toList ⟨8 * 10 ^ 9, 90 * 10 ^ 9⟩ first second hne
  exact ⟨first, second, s, hne, hrun, hremoved, fun hsettled ↦
    hne (Subtype.ext (hsettled.byAsker _ _ hremoved)).symm⟩

end RunnerManager.Platform.ServiceRequest
