import RunnerManager.Agent.SlotScrub

/-!
# A refusal in the middle of a scrub

`scrub_slot_entries` learns that `_work` was substituted when its walk reaches it, and by then it
has removed what the listing named before. `refusal_removes_nothing_iff` says when the refusal
still finds the slot as it was.
-/

namespace RunnerManager.Agent

open RunnerManager.Domain
open Contract (wp_along wp_mono wp_outcome_seq wp_runs wp_seq)

section Directory

variable {platform : PathPlatform} {γ : Type} {slot : String}

/-! ## A filesystem with a listing order -/

/-- A slot with these entries is listed in this order, and a removal that reports its entry missing
found none. -/
def Ordered (order : List (Except ErrorKind FileName)) (dir : SlotDir platform γ) :
    (c : SlotCall) → c.Answer → Prop
  | .readDir, answer => dir.Lists order → answer = .ok order
  | .removeFile name, .error .notFound | .removeDir name, .error .notFound
  | .removeDirAll name, .error .notFound =>
    ∀ entry ∈ dir.entries, ¬ SlotDir.Named platform name entry
  | _, _ => True

/-- A filesystem that lists the slot in a given order. -/
def orderedContract (platform : PathPlatform) (γ : Type)
    (order : List (Except ErrorKind FileName)) :
    Contract SlotCall SlotCall.Answer (SlotDir platform γ) :=
  (slotContract platform γ).assuming fun dir c answer ↦ Ordered order dir c answer

/-- No entry came to be. -/
def Shrinks (dir next : SlotDir platform γ) : Prop :=
  ∀ entry ∈ next.entries, ∃ before ∈ dir.entries, before.name = entry.name

def Absent (name : FileName) (dir : SlotDir platform γ) : Prop :=
  ∀ entry ∈ dir.entries, ¬ SlotDir.Named platform name entry

theorem Shrinks.trans {a b c : SlotDir platform γ} (hab : Shrinks a b) (hbc : Shrinks b c) :
    Shrinks a c := by
  intro entry hentry
  obtain ⟨middle, hmiddle, hname⟩ := hbc entry hentry
  obtain ⟨before, hbefore, hsame⟩ := hab middle hmiddle
  exact ⟨before, hbefore, hsame.trans hname⟩

theorem Shrinks.absent {dir next : SlotDir platform γ} {name : FileName} (h : Shrinks dir next)
    (habsent : Absent name dir) : Absent name next := by
  intro entry hentry hnamed
  obtain ⟨before, hbefore, hsame⟩ := h entry hentry
  refine habsent before hbefore ?_
  show nameOn platform before.name = _
  rw [hsame]
  exact hnamed

theorem shrinks_of_damaged {dir next : SlotDir platform γ} {name : FileName}
    (h : dir.Damaged name next) : Shrinks dir next := by
  obtain ⟨damage, hnext⟩ := h
  intro entry hentry
  rw [hnext] at hentry
  obtain ⟨before, hbefore, rfl⟩ := List.mem_map.mp hentry
  refine ⟨before, hbefore, ?_⟩
  split_ifs <;> rfl

theorem shrinks_of_removed {dir next : SlotDir platform γ} {name : FileName}
    (h : dir.Removed name next) : Shrinks dir next := by
  intro entry hentry
  rw [h] at hentry
  exact ⟨entry, (List.mem_filter.mp hentry).1, rfl⟩

theorem absent_of_removed {dir next : SlotDir platform γ} {name : FileName}
    (h : dir.Removed name next) : Absent name next := by
  intro entry hentry
  rw [h] at hentry
  simpa using (List.mem_filter.mp hentry).2

theorem shrinks_of_steps {dir next : SlotDir platform γ} {c : SlotCall} {answer : c.Answer}
    (hstep : dir.Steps c answer next) : Shrinks dir next := by
  have hsame : Shrinks dir dir := fun entry hentry ↦ ⟨entry, hentry, rfl⟩
  cases c with
  | configuredRoot | verifyContainment | slotMetadata =>
    obtain rfl : next = dir := hstep
    exact hsame
  | readDir | symlinkMetadata =>
    obtain rfl : next = dir := hstep.1
    exact hsame
  | removeFile | removeDir | removeDirAll =>
    cases answer with
    | ok _ => exact shrinks_of_removed hstep
    | error _ => exact shrinks_of_damaged hstep
  | unlinkReparsePoints => exact shrinks_of_damaged hstep

variable {order : List (Except ErrorKind FileName)}

theorem orderedContract_lenient : Lenient platform (orderedContract platform γ order) :=
  fun _ _ h ↦ h

/-- What an answer to a removal says: the entry is gone, or it refused. -/
def Gone (name : FileName) (answer : Except ErrorKind Unit) (dir : SlotDir platform γ) : Prop :=
  answer = .ok () ∨ answer = .error .notFound → Absent name dir

theorem gone_of_removal {dir next : SlotDir platform γ} {name : FileName}
    {answer : Except ErrorKind Unit} (hmissing : answer = .error .notFound → Absent name dir)
    (h : dir.Removes name answer next) : Gone name answer next := by
  intro hanswer
  cases answer with
  | ok _ => exact absent_of_removed h
  | error kind =>
    obtain hok | hmiss := hanswer
    · cases hok
    · exact (shrinks_of_damaged h).absent (hmissing hmiss)

theorem removeRuntimeTree_gone {name : FileName} (hname : isWorkFolder platform name = false)
    (dir : SlotDir platform γ) :
    (orderedContract platform γ order).wp (removeRuntimeTree platform name)
      (fun result next ↦ ∃ answer, result = .ok answer ∧ Gone name answer next) dir := by
  have hremoved : ∀ {dir next : SlotDir platform γ} {answer : Except ErrorKind Unit},
      Ordered order dir (.removeDirAll name) answer ∧ dir.Removes name answer next →
        Gone name answer next :=
    fun h ↦ gone_of_removal (fun hmiss ↦ by subst hmiss; exact h.1) h.2
  unfold removeRuntimeTree
  refine ⟨hname, fun answer next hstep ↦ ?_⟩
  have hfirst : Gone name answer next := hremoved hstep
  clear hstep
  cases platform with
  | unix => exact ⟨_, rfl, hfirst⟩
  | windows =>
    cases answer with
    | ok _ =>
      exact ⟨_, rfl, hfirst⟩
    | error kind =>
      cases kind with
      | permissionDenied =>
        refine ⟨hname, fun _ _ _ ↦ ⟨hname, fun answer last hlast ↦ ?_⟩⟩
        exact ⟨_, rfl, hremoved hlast⟩
      | notFound | other =>
        exact ⟨_, rfl, hfirst⟩

theorem removeByKind_gone {name : FileName} (hname : isWorkFolder platform name = false)
    (metadata : Metadata) (dir : SlotDir platform γ) :
    (orderedContract platform γ order).wp (removeByKind platform name metadata)
      (fun result next ↦ ∃ answer, result = .ok answer ∧ Gone name answer next) dir := by
  unfold removeByKind
  split_ifs
  · refine ⟨hname, fun answer next hstep ↦ ?_⟩
    have hfirst : Gone name answer next :=
      gone_of_removal (fun hmiss ↦ by subst hmiss; exact hstep.1) hstep.2
    clear hstep
    cases answer with
    | ok _ =>
      exact ⟨_, rfl, hfirst⟩
    | error kind =>
      refine ⟨hname, fun answer last hlast ↦ ?_⟩
      exact ⟨_, rfl, gone_of_removal (fun hmiss ↦ by subst hmiss; exact hlast.1) hlast.2⟩
  · exact removeRuntimeTree_gone hname dir
  · refine ⟨hname, fun answer next hstep ↦ ?_⟩
    exact ⟨_, rfl, gone_of_removal (fun hmiss ↦ by subst hmiss; exact hstep.1) hstep.2⟩

theorem scrubEntry_gone {name : FileName} (hname : isWorkFolder platform name = false)
    (metadata : Metadata) (dir : SlotDir platform γ) :
    (orderedContract platform γ order).wp (scrubEntry platform slot name metadata)
      (fun result next ↦ NotSubstituted result ∧ (result = .ok () → Absent name next)) dir := by
  unfold scrubEntry
  rw [if_neg (by simp [hname])]
  have hboth : (orderedContract platform γ order).wp (removeSlotEntry platform name metadata)
      (fun result next ↦ NotSubstituted result ∧
        (result = .ok (.ok ()) → Absent name next)) dir := by
    refine wp_seq (removeByKind_gone hname metadata dir) (fun answer next h ↦ ?_)
      fun _ _ h ↦ by obtain ⟨_, hresult, -⟩ := h; cases hresult
    obtain ⟨_, hresult, hgone⟩ := h
    cases hresult
    cases answer with
    | ok _ => exact ⟨notSubstituted_ok _, fun _ ↦ hgone (.inl rfl)⟩
    | error kind =>
      cases kind with
      | notFound => exact ⟨notSubstituted_ok _, fun _ ↦ hgone (.inr rfl)⟩
      | permissionDenied | other => exact ⟨notSubstituted_ok _, fun h ↦ (nomatch h)⟩
  refine wp_seq hboth (fun answer next h ↦ ?_)
    fun _ _ h ↦ ⟨h.1.forward, fun h ↦ (nomatch h)⟩
  cases answer with
  | ok _ => exact ⟨notSubstituted_ok _, fun _ ↦ h.2 rfl⟩
  | error kind =>
    refine ⟨fun refused hrefused ↦ ?_, fun h ↦ (nomatch h)⟩
    cases hrefused
    exact SlotRefusal.noConfusion

theorem no_second_work {dir : SlotDir platform γ} {name : FileName}
    {rest : List (Except ErrorKind FileName)} (hlists : dir.Lists (.ok name :: rest))
    (hname : isWorkFolder platform name = true) :
    ∀ other, .ok other ∈ rest → isWorkFolder platform other = false := by
  intro other hother
  by_contra hwork
  have hother' : isWorkFolder platform other = true := by simpa using hwork
  have hkeys : (((Except.ok name :: rest).filterMap Except.toOption).map
      (nameOn platform)).Nodup := by
    obtain ⟨listed, hperm, hsub⟩ := hlists.1
    refine (hperm.map (nameOn platform)).nodup_iff.mp (List.Nodup.sublist (hsub.map _) ?_)
    rw [List.map_map]
    exact dir.distinct
  have hsame : nameOn platform name = nameOn platform other :=
    (isWorkFolder_iff.mp hname).trans (isWorkFolder_iff.mp hother').symm
  have hcons : (nameOn platform name ::
      (rest.filterMap Except.toOption).map (nameOn platform)).Nodup := hkeys
  refine (List.nodup_cons.mp hcons).1 (hsame ▸ List.mem_map_of_mem ?_)
  exact List.mem_filterMap.mpr ⟨.ok other, hother, rfl⟩

def WorkFirst (platform : PathPlatform) (items : List (Except ErrorKind FileName)) : Prop :=
  ∃ name rest, items = .ok name :: rest ∧ isWorkFolder platform name = true

/-- A refusal over a substituted `_work` finds the slot as it was just when the listing begins
with it. -/
def KeptWhenFirst (dir : SlotDir platform γ) (items : List (Except ErrorKind FileName))
    (result : Except SlotQuarantine Unit) (next : SlotDir platform γ) : Prop :=
  ∀ refused, result = .error refused → refused.refusal = .workNotADirectory →
    (next.entries = dir.entries ↔ WorkFirst platform items)

theorem NotSubstituted.keptWhenFirst {dir next : SlotDir platform γ}
    {items : List (Except ErrorKind FileName)} {result : Except SlotQuarantine Unit}
    (h : NotSubstituted result) : KeptWhenFirst dir items result next :=
  fun refused hrefused hwork ↦ absurd hwork (h refused hrefused)

/-- What a walk that refused over a substituted `_work` removed. -/
theorem scrubEntries_refusal {dir : SlotDir platform γ}
    {items : List (Except ErrorKind FileName)} (hlists : dir.Lists items) :
    (orderedContract platform γ order).wp (scrubEntries platform slot items)
      (KeptWhenFirst dir items) dir := by
  cases items with
  | nil => exact (notSubstituted_ok ()).keptWhenFirst
  | cons item rest =>
    cases item with
    | error kind =>
      exact wp_mono (unlisted_notSubstituted "" kind dir) fun _ _ h ↦
        h.keptWhenFirst
    | ok name =>
      have hlisted : name ∈ dir.entries.map (·.name) :=
        hlists.1.subset (List.mem_filterMap.mpr ⟨.ok name, List.mem_cons_self, rfl⟩)
      obtain ⟨entry, hentry, rfl⟩ := List.mem_map.mp hlisted
      unfold scrubEntries
      refine ⟨trivial, fun answer next hstep ↦ ?_⟩
      obtain ⟨-, rfl, hshows⟩ : _ ∧ next = dir ∧ dir.Shows entry.name answer := hstep
      cases answer with
      | error kind =>
        cases kind with
        | notFound => exact absurd rfl (hshows entry hentry)
        | permissionDenied | other =>
          exact wp_mono (unlisted_notSubstituted "" _ next) fun _ _ h ↦
        h.keptWhenFirst
      | ok metadata =>
        show (orderedContract platform γ order).wp
          (scrubEntry platform slot entry.name metadata >>= fun _ ↦
            scrubEntries platform slot rest) _ _
        cases hname : isWorkFolder platform entry.name with
        | true =>
          unfold scrubEntry
          rw [if_pos hname]
          split_ifs with hretained
          · -- The workspace is kept, and the rest of the listing does not name another.
            refine wp_mono (scrubEntries_allowed orderedContract_lenient rest next)
              fun _ _ h ↦ (h (no_second_work hlists hname)).keptWhenFirst
          · intro refused hrefused hwork
            exact ⟨fun _ ↦ ⟨entry.name, rest, rfl, hname⟩, fun _ ↦ rfl⟩
        | false =>
          refine wp_seq (scrubEntry_gone hname metadata next)
            (fun _ u hu ↦ ?_) fun _ _ h ↦ h.1.forward.keptWhenFirst
          -- The entry is gone for good, so the slot is not what it was.
          refine wp_mono (wp_along (R := Shrinks)
            (fun _ entry hentry ↦ ⟨entry, hentry, rfl⟩) (fun _ _ _ h h' ↦ h.trans h')
            (fun _ _ _ _ hstep ↦ shrinks_of_steps hstep.2)
            (scrubEntries_allowed orderedContract_lenient rest u)) ?_
          intro result last hlast refused hrefused hwork
          have habsent : Absent entry.name last := hlast.1.absent (hu.2 rfl)
          constructor
          · intro hsame
            rw [← hsame] at hentry
            exact absurd rfl (habsent entry hentry)
          · rintro ⟨other, others, heq, hother⟩
            cases heq
            rw [hname] at hother
            cases hother

/-! ## The whole scrub -/

theorem scrubSlotEntries_refusal {dir : SlotDir platform γ} (hlists : dir.Lists order) :
    (orderedContract platform γ order).wp (scrubSlotEntries platform slot)
      (KeptWhenFirst dir order) dir := by
  unfold scrubSlotEntries
  refine ⟨trivial, fun answer next hstep ↦ ?_⟩
  obtain ⟨hordered, rfl, -⟩ : (dir.Lists order → answer = .ok order) ∧ next = dir ∧ _ := hstep
  rw [hordered hlists]
  exact scrubEntries_refusal hlists

theorem scrubAndVerify_refusal {dir : SlotDir platform γ} (hlists : dir.Lists order) :
    (orderedContract platform γ order).wp (scrubAndVerify platform slot)
      (KeptWhenFirst dir order) dir := by
  refine wp_seq (scrubSlotEntries_refusal hlists) (fun _ t _ ↦ ?_)
    fun _ _ h refused heq ↦ ?_
  · exact wp_mono (verifySlotScrubbed_allowed orderedContract_lenient t)
      fun _ _ h ↦ h.keptWhenFirst
  · cases heq
    exact h _ rfl

theorem checkContainment_keeps (root : LocalAbsolutePath) (child : String)
    (dir : SlotDir platform γ) :
    (orderedContract platform γ order).wp (checkContainment root child)
      (fun result next ↦ NotSubstituted result ∧ next = dir) dir := by
  refine ⟨trivial, fun answer next hstep ↦ ?_⟩
  obtain rfl : next = dir := hstep.2
  cases answer with
  | ok _ => exact ⟨notSubstituted_ok _, rfl⟩
  | error source =>
    refine ⟨fun refused hrefused ↦ ?_, rfl⟩
    cases hrefused
    exact SlotRefusal.noConfusion

theorem verifyJournalledSlot_keeps (number : NonZeroU16) (configured : Option LocalAbsolutePath)
    (dir : SlotDir platform γ) :
    (orderedContract platform γ order).wp (verifyJournalledSlot platform slot number configured)
      (fun result next ↦ NotSubstituted result ∧ next = dir) dir := by
  have hmislaid : NotSubstituted (.error ⟨.notTheJournalledSlot, "the journalled runtime " ++ slot
      ++ " is not the slot s" ++ toString number.val ++ " this attempt was allocated as"⟩ :
      Except SlotQuarantine Unit) := by
    intro refused hrefused
    cases hrefused
    exact SlotRefusal.noConfusion
  unfold verifyJournalledSlot
  split
  · split
    · exact ⟨hmislaid, rfl⟩
    · split_ifs
      · exact ⟨hmislaid, rfl⟩
      · split
        · exact checkContainment_keeps _ _ dir
        · split_ifs
          · refine ⟨fun refused hrefused ↦ ?_, rfl⟩
            cases hrefused
            exact SlotRefusal.noConfusion
          · exact checkContainment_keeps _ _ dir
  · exact ⟨hmislaid, rfl⟩

theorem slotIsPresent_keeps (dir : SlotDir platform γ) :
    (orderedContract platform γ order).wp (slotIsPresent platform slot)
      (fun result next ↦ NotSubstituted result ∧ next = dir) dir := by
  refine ⟨trivial, fun answer next hstep ↦ ?_⟩
  obtain rfl : next = dir := hstep.2
  have hrefuses : ∀ detail, NotSubstituted
      (.error ⟨.slotNotADirectory, detail⟩ : Except SlotQuarantine Bool) := by
    intro detail refused hrefused
    cases hrefused
    exact SlotRefusal.noConfusion
  cases answer with
  | ok metadata =>
    show (orderedContract platform γ order).wp (if _ then _ else _) _ _
    split_ifs
    · exact ⟨hrefuses _, rfl⟩
    · exact ⟨notSubstituted_ok _, rfl⟩
  | error kind =>
    cases kind with
    | notFound => exact ⟨notSubstituted_ok _, rfl⟩
    | permissionDenied | other => exact ⟨hrefuses _, rfl⟩

theorem scrubJournalledSlot_refusal (number : NonZeroU16) (configured : Option LocalAbsolutePath)
    {dir : SlotDir platform γ} (hlists : dir.Lists order) :
    (orderedContract platform γ order).wp (scrubJournalledSlot platform slot number configured)
      (KeptWhenFirst dir order) dir := by
  unfold scrubJournalledSlot
  refine wp_seq (verifyJournalledSlot_keeps number configured dir) (fun _ t h ↦ ?_)
    fun _ _ h ↦ h.1.forward.keptWhenFirst
  obtain ⟨-, rfl⟩ := h
  refine wp_seq (slotIsPresent_keeps t) (fun present u h ↦ ?_)
    fun _ _ h ↦ h.1.forward.keptWhenFirst
  obtain ⟨-, rfl⟩ := h
  cases present with
  | true => exact scrubAndVerify_refusal hlists
  | false => exact (notSubstituted_ok ()).keptWhenFirst

theorem className_workNotADirectory {refusal : SlotRefusal}
    (h : refusal.className = SlotRefusal.className .workNotADirectory) :
    refusal = .workNotADirectory := by
  cases refusal <;> simp [SlotRefusal.className] at h ⊢

/-- A scrub that refuses because `_work` is not a directory has removed nothing exactly when the
listing begins with `_work`. -/
theorem refusal_removes_nothing_iff (platform : PathPlatform) (γ : Type) (attempt : RunnerAttempt)
    (number : NonZeroU16) (order : List (Except ErrorKind FileName)) (dir : SlotDir platform γ)
    (hlists : dir.Lists order) (detail : String) (last : SlotDir platform γ)
    (hrun : (orderedContract platform γ order).Runs (scrubPersistentSlot platform attempt number)
      dir (.done (.error (.slotQuarantined (SlotRefusal.className .workNotADirectory) detail)))
      last) :
    last.entries = dir.entries ↔ WorkFirst platform order := by
  have hwp : (orderedContract platform γ order).wp (scrubPersistentSlot platform attempt number)
      (fun result next ↦ ∀ detail, result =
          .error (.slotQuarantined (SlotRefusal.className .workNotADirectory) detail) →
        (next.entries = dir.entries ↔ WorkFirst platform order)) dir := by
    refine ⟨trivial, fun answer next hstep ↦ ?_⟩
    obtain rfl : next = dir := hstep.2
    cases answer with
    | error _ => exact fun _ h ↦ (nomatch h)
    | ok configured =>
      refine wp_outcome_seq (scrubJournalledSlot_refusal number configured hlists)
        fun result t h ↦ ?_
      cases result with
      | ok _ => exact fun _ h ↦ (nomatch h)
      | error refused =>
        intro detail hdetail
        simp only [Except.error.injEq, LifecycleError.slotQuarantined.injEq] at hdetail
        exact h refused rfl (className_workNotADirectory hdetail.1)
  exact wp_runs hwp hrun detail rfl

end Directory

theorem SlotDir.lists_of_perm {platform : PathPlatform} {γ : Type} {dir : SlotDir platform γ}
    {items : List (Except ErrorKind FileName)}
    (h : (items.filterMap Except.toOption).Perm (dir.entries.map (·.name))) : dir.Lists items :=
  ⟨h.subperm, fun _ ↦ h⟩

def slotAttempt : RunnerAttempt :=
  .allocateIn ⟨1⟩ ⟨2⟩ "/w/s1" (.persistentSlot ⟨1, one_nonZero⟩) 0

def slotRoot : LocalAbsolutePath := ⟨"/w", .unix, by decide⟩

/-- A directory, as an inspection shows it. -/
def directory : Metadata := ⟨true, false, false⟩

/-- A symbolic link, as an inspection shows it. -/
def symbolicLink : Metadata := ⟨false, true, false⟩

/-- The runner's `bin` and a `_work` that a job replaced with a link. -/
def substitutedSlot : SlotDir .unix Unit where
  entries := [⟨fileName "bin", directory, ()⟩, ⟨fileName "_work", symbolicLink, ()⟩]
  distinct := by decide

/-- The same slot without its `bin`. -/
def partlyScrubbed : SlotDir .unix Unit where
  entries := [⟨fileName "_work", symbolicLink, ()⟩]
  distinct := by decide

/-- The refusal of both runs below. -/
def substitutedDetail : String :=
  "the retained `_work` in /w/s1 is a link or a file rather than a real directory; "
    ++ SlotRefusal.remediation .workNotADirectory

/-- A listing that begins with the substituted `_work` leaves `bin` where it was. -/
theorem refused_at_once : ∃ last : SlotDir .unix Unit,
    (orderedContract .unix Unit [.ok (fileName "_work"), .ok (fileName "bin")]).Runs
      (scrubPersistentSlot .unix slotAttempt ⟨1, by decide⟩) substitutedSlot
      (.done (.error (.slotQuarantined (SlotRefusal.className .workNotADirectory)
        substitutedDetail))) last ∧
    last.entries = substitutedSlot.entries := by
  let order : List (Except ErrorKind FileName) := [.ok (fileName "_work"), .ok (fileName "bin")]
  have hlists : substitutedSlot.Lists order := SlotDir.lists_of_perm (by decide)
  have h0 := Contract.Runs.cut (C := orderedContract .unix Unit order)
    (scrubPersistentSlot .unix slotAttempt ⟨1, by decide⟩) substitutedSlot
  have h1 := h0.advance (.configuredRoot ⟨2⟩) (.ok none) substitutedSlot rfl ⟨trivial, rfl⟩
  have h2 := h1.advance (.verifyContainment slotRoot "/w/s1") (.ok ()) substitutedSlot rfl
    ⟨trivial, rfl⟩
  have h3 := h2.advance .slotMetadata (.ok directory) substitutedSlot rfl ⟨trivial, rfl⟩
  have h4 := h3.advance .readDir (.ok order) substitutedSlot rfl
    ⟨fun _ ↦ rfl, rfl, fun items h ↦ by cases h; exact hlists⟩
  have h5 := h4.advance (.symlinkMetadata (fileName "_work")) (.ok symbolicLink) substitutedSlot rfl
    ⟨trivial, rfl, ⟨_, .tail _ (.head _), rfl, rfl⟩⟩
  refine ⟨substitutedSlot, h5, ?_⟩
  exact (refusal_removes_nothing_iff .unix Unit slotAttempt ⟨1, by decide⟩ order substitutedSlot
    hlists _ _ h5).mpr ⟨_, _, rfl, rfl⟩

/-- A listing that comes to the substituted `_work` after `bin` has removed `bin` when it refuses,
and the refusal says that nothing was removed. -/
theorem refused_after_removal : ∃ (order : List (Except ErrorKind FileName))
    (last : SlotDir .unix Unit), substitutedSlot.Lists order ∧
    (orderedContract .unix Unit order).Runs
      (scrubPersistentSlot .unix slotAttempt ⟨1, by decide⟩) substitutedSlot
      (.done (.error (.slotQuarantined (SlotRefusal.className .workNotADirectory)
        substitutedDetail))) last ∧
    ∃ entry ∈ substitutedSlot.entries, entry ∉ last.entries := by
  let order : List (Except ErrorKind FileName) := [.ok (fileName "bin"), .ok (fileName "_work")]
  have hlists : substitutedSlot.Lists order := SlotDir.lists_of_perm (by decide)
  have h0 := Contract.Runs.cut (C := orderedContract .unix Unit order)
    (scrubPersistentSlot .unix slotAttempt ⟨1, by decide⟩) substitutedSlot
  have h1 := h0.advance (.configuredRoot ⟨2⟩) (.ok none) substitutedSlot rfl ⟨trivial, rfl⟩
  have h2 := h1.advance (.verifyContainment slotRoot "/w/s1") (.ok ()) substitutedSlot rfl
    ⟨trivial, rfl⟩
  have h3 := h2.advance .slotMetadata (.ok directory) substitutedSlot rfl ⟨trivial, rfl⟩
  have h4 := h3.advance .readDir (.ok order) substitutedSlot rfl
    ⟨fun _ ↦ rfl, rfl, fun items h ↦ by cases h; exact hlists⟩
  have h5 := h4.advance (.symlinkMetadata (fileName "bin")) (.ok directory) substitutedSlot rfl
    ⟨trivial, rfl, ⟨_, .head _, rfl, rfl⟩⟩
  have h6 := h5.advance (.removeDirAll (fileName "bin")) (.ok ()) partlyScrubbed rfl
    ⟨trivial, rfl⟩
  have h7 := h6.advance (.symlinkMetadata (fileName "_work")) (.ok symbolicLink) partlyScrubbed rfl
    ⟨trivial, rfl, ⟨_, .head _, rfl, rfl⟩⟩
  refine ⟨order, partlyScrubbed, hlists, h7, ⟨fileName "bin", directory, ()⟩, .head _, ?_⟩
  intro hmem
  cases hmem with
  | tail _ h => cases h

end RunnerManager.Agent
