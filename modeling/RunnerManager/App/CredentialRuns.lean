import RunnerManager.App.Credentials

/-!
# A renewal writes over what it read

A renewal reads, exchanges and writes under the lock; a sign-in and a sign-out do not take it. Read
`Undisturbed` first: it is what a run has to do for a renewal to write over what it read
(`credential_kept`), and `restored_after_logout` is a run that does not do it. `Safe` is the
invariant: what a renewal has read is still stored while it is on its way.
-/

namespace RunnerManager.App

open Github (UserAccessToken RenewalError)

/-- The pair that the server has minted for a renewal. -/
def Renewing.Mints (token : String) (fresh : UserAccessToken) : Renewing → Prop
  | .sent spent answer => spent = token ∧ answer = some fresh
  | .minted spent pair => spent = token ∧ pair = fresh
  | _ => False

theorem Renewing.Mints.token {renewing : Renewing} {token : String} {fresh : UserAccessToken}
    (h : Renewing.Mints token fresh renewing) : renewing.token = some token := by
  cases renewing with
  | away | read => cases h
  | sent spent answer =>
    obtain ⟨rfl, -⟩ := h
    rfl
  | minted spent pair =>
    obtain ⟨rfl, -⟩ := h
    rfl

namespace Vault

variable {ι : Type}

/-- No sign-in or sign-out writes while a renewal is between its read and its write. -/
def Undisturbed (i : ι) (s : Vault ι) : AuthCall → Prop
  | .store _ | .delete => ∀ j, j ≠ i → (s.processes j).renewing.token = none
  | _ => True

/-- What is promised of the stored credential. -/
structure Kept (writable : ι → Bool) (s : Vault ι) : Prop where
  /-- A token is sent under the lock, by a process that can write, while it is stored, and not
  again after its successor was stored. -/
  sent : ∀ entry ∈ s.sends, entry.lock = some entry.sender ∧ writable entry.sender = true ∧
    refreshOf entry.stored = some entry.token ∧ entry.token ∉ entry.retired
  once : s.spent.Nodup
  /-- A renewal writes over the pair that it exchanged: neither over nothing, after a sign-out, nor
  over what a sign-in wrote meanwhile. -/
  overwritten : ∀ entry ∈ s.overwrites, refreshOf entry.before = some entry.token

/-- The store held a credential at some moment since a process was started. -/
def Held (i : ι) (token : UserAccessToken) (s : Vault ι) : Prop :=
  ∃ document, some document ∈ (s.processes i).during ∧ fromStoredDocument document = token

/-- Where a process has to be to make a call. -/
def Turn (writable : ι → Bool) (i : ι) (s : Vault ι) : AuthCall → Prop
  | .release => s.lock = some i
  | .load => (s.processes i).renewing = .away ∧ ((s.processes i).renews ≠ none → s.lock = some i)
  | .send token => (s.processes i).renewing = .read token ∧ writable i = true
  | .store document => (s.processes i).renewing = .away ∨ ∃ token fresh,
      (s.processes i).renewing = .minted token fresh ∧ document = toStoredDocument fresh
  | .delete => (s.processes i).renewing = .away
  | _ => True

/-- The invariant. -/
structure Safe (writable : ι → Bool) (s : Vault ι) : Prop where
  kept : s.Kept writable
  flight : ∀ i token, (s.processes i).renewing.token = some token →
    s.lock = some i ∧ refreshOf s.stored = some token
  minted : ∀ i token fresh, Renewing.Mints token fresh (s.processes i).renewing →
    token ∈ s.spent ∧ ∀ refresh, fresh.refreshToken = some refresh → refresh ∉ s.spent
  retired : ∀ token ∈ s.retired, token ∈ s.spent
  live : ∀ token, refreshOf s.stored = some token → token ∉ s.retired
  during : ∀ i, s.stored ∈ (s.processes i).during

variable {writable : ι → Bool} {s t : Vault ι} {i j : ι}

theorem refreshOf_toStoredDocument (token : UserAccessToken) :
    refreshOf (some (toStoredDocument token)) = token.refreshToken := by
  show (fromStoredDocument (toStoredDocument token)).refreshToken = token.refreshToken
  rw [fromStoredDocument_toStoredDocument]

theorem Safe.alone (h : s.Safe writable) (hlock : s.lock = some i) (hji : j ≠ i) :
    (s.processes j).renewing.token = none := by
  cases hj : (s.processes j).renewing.token with
  | none => rfl
  | some token =>
    have hheld := (h.flight j token hj).1
    exact absurd (Option.some.inj (hheld.symm.trans hlock)) hji

theorem Safe.acquired (h : s.Safe writable) (hlock : s.lock = none) :
    { s with lock := some i }.Safe writable where
  kept := ⟨h.kept.sent, h.kept.once, h.kept.overwritten⟩
  flight j token hj := by
    have hheld := (h.flight j token hj).1
    rw [hlock] at hheld
    cases hheld
  minted := h.minted
  retired := h.retired
  live := h.live
  during := h.during

theorem Safe.put (h : s.Safe writable) {stored : Option StoredDocument} {retired : List String}
    {overwrites : List Overwrite}
    (hothers : ∀ j, (s.processes j).renewing.token = none)
    (hretired : ∀ token ∈ retired, token ∈ s.spent)
    (hlive : ∀ token, refreshOf stored = some token → token ∉ retired)
    (hoverwrites : ∀ entry ∈ overwrites, refreshOf entry.before = some entry.token) :
    { s.puts stored with retired, overwrites }.Safe writable where
  kept := ⟨h.kept.sent, h.kept.once, hoverwrites⟩
  flight j token hj := by
    have hj : (s.processes j).renewing.token = some token := hj
    rw [hothers j] at hj
    cases hj
  minted := h.minted
  retired := hretired
  live := hlive
  during _ := List.mem_cons_self

variable [DecidableEq ι]

@[simp]
theorem goes_processes (s : Vault ι) (i : ι) (renewing : Renewing) (j : ι) :
    (s.goes i renewing).processes j =
      if j = i then { s.processes i with renewing } else s.processes j :=
  Function.update_apply _ _ _ _

theorem Safe.goes (h : s.Safe writable) {renewing : Renewing}
    (hflight : ∀ token, renewing.token = some token →
      s.lock = some i ∧ refreshOf s.stored = some token)
    (hminted : ∀ token fresh, Renewing.Mints token fresh renewing →
      token ∈ s.spent ∧ ∀ refresh, fresh.refreshToken = some refresh → refresh ∉ s.spent) :
    (s.goes i renewing).Safe writable where
  kept := ⟨h.kept.sent, h.kept.once, h.kept.overwritten⟩
  flight j token := by
    rw [goes_processes]
    split
    · next hji =>
      rw [hji]
      exact hflight token
    · exact h.flight j token
  minted j token fresh := by
    rw [goes_processes]
    split
    · exact hminted token fresh
    · exact h.minted j token fresh
  retired := h.retired
  live := h.live
  during j := by
    rw [goes_processes]
    split
    · next hji =>
      show s.stored ∈ (s.processes i).during
      exact h.during i
    · exact h.during j

theorem Safe.away (h : s.Safe writable) : (s.goes i .away).Safe writable :=
  h.goes (fun _ htoken ↦ nomatch htoken) fun _ _ hmints ↦ hmints.elim

theorem Safe.released (h : s.Safe writable) (hlock : s.lock = some i) :
    ({ s with lock := none }.goes i .away).Safe writable := by
  have haway := h.away (i := i)
  refine ⟨⟨haway.kept.sent, haway.kept.once, haway.kept.overwritten⟩, ?_, haway.minted,
    haway.retired, haway.live, haway.during⟩
  intro j token hj
  rw [goes_processes] at hj
  split at hj
  · cases hj
  · next hji =>
    rw [h.alone hlock hji] at hj
    cases hj

theorem Safe.posted (h : s.Safe writable) {token : String} {minted : Option UserAccessToken}
    (hread : (s.processes i).renewing = .read token) (hwritable : writable i = true)
    (hminted : ∀ fresh, minted = some fresh → token ∉ s.spent ∧
      ∀ refresh, fresh.refreshToken = some refresh → refresh ∉ s.spent ++ [token]) :
    ((s.posts i token minted).goes i (.sent token minted)).Safe writable := by
  have hmine := h.flight i token (by rw [hread]; rfl)
  have hspent : ∀ spent ∈ s.spent, spent ∈ (s.posts i token minted).spent := by
    intro spent hspent
    unfold posts
    dsimp only
    split
    · exact List.mem_append_left _ hspent
    · exact hspent
  have hothers : ∀ j, j ≠ i → (s.processes j).renewing.token = none :=
    fun j hji ↦ h.alone hmine.1 hji
  refine ⟨⟨?_, ?_, h.kept.overwritten⟩, ?_, ?_,
    fun spent hretired ↦ hspent _ (h.retired _ hretired),
    h.live, ?_⟩
  · refine List.forall_mem_append.mpr ⟨h.kept.sent, List.forall_mem_singleton.mpr ?_⟩
    exact ⟨hmine.1, hwritable, hmine.2, h.live token hmine.2⟩
  · show (s.posts i token minted).spent.Nodup
    unfold posts
    cases minted with
    | none => exact h.kept.once
    | some fresh =>
      have hnew := (hminted fresh rfl).1
      refine List.nodup_append.mpr ⟨h.kept.once, List.pairwise_singleton _ _, ?_⟩
      intro spent hspent other hother hsame
      rw [List.mem_singleton] at hother
      exact hnew (hother ▸ hsame ▸ hspent)
  · intro j other hj
    rw [goes_processes] at hj
    split at hj
    · next hji =>
      obtain rfl : token = other := Option.some.inj hj
      rw [hji]
      exact hmine
    · next hji => exact absurd ((hothers j hji).symm.trans hj) (fun h ↦ nomatch h)
  · intro j other fresh hj
    rw [goes_processes] at hj
    split at hj
    · obtain ⟨rfl, rfl⟩ := hj
      exact ⟨List.mem_append_right _ (List.mem_singleton.mpr rfl), (hminted fresh rfl).2⟩
    · next hji => exact absurd ((hothers j hji).symm.trans hj.token) (fun h ↦ nomatch h)
  · intro j
    rw [goes_processes]
    split
    · next hji => exact h.during i
    · exact h.during j

theorem Safe.answered (h : s.Safe writable) {token : String} {fresh : UserAccessToken}
    (hsent : (s.processes i).renewing = .sent token (some fresh)) :
    (s.goes i (.minted token fresh)).Safe writable := by
  refine h.goes (fun other hother ↦ ?_) fun other minted hmints ↦ ?_
  · obtain rfl : token = other := Option.some.inj hother
    exact h.flight i token (by rw [hsent]; rfl)
  · obtain ⟨rfl, rfl⟩ := hmints
    exact h.minted i token fresh (by rw [hsent]; exact ⟨rfl, rfl⟩)

theorem Safe.renewed (h : s.Safe writable) {token : String} {fresh : UserAccessToken}
    (hrenewing : (s.processes i).renewing = .minted token fresh) :
    (s.wrote i (toStoredDocument fresh)).Safe writable := by
  have hmine := h.flight i token (by rw [hrenewing]; rfl)
  obtain ⟨hspent, hfresh⟩ := h.minted i token fresh (by rw [hrenewing]; exact ⟨rfl, rfl⟩)
  unfold wrote
  rw [hrenewing]
  refine (h.away (i := i)).put (fun j ↦ ?_) ?_ ?_ ?_
  · rw [goes_processes]
    split
    · rfl
    · next hji => exact h.alone hmine.1 hji
  · exact List.forall_mem_append.mpr ⟨h.retired, List.forall_mem_singleton.mpr hspent⟩
  · intro refresh hrefresh hretired
    rw [refreshOf_toStoredDocument] at hrefresh
    refine hfresh refresh hrefresh ?_
    rcases List.mem_append.mp hretired with hretired | hretired
    · exact h.retired refresh hretired
    · rw [List.mem_singleton] at hretired
      exact hretired ▸ hspent
  · exact List.forall_mem_append.mpr ⟨h.kept.overwritten, List.forall_mem_singleton.mpr hmine.2⟩

theorem Safe.signedIn (h : s.Safe writable) (haway : ∀ j, (s.processes j).renewing.token = none)
    (hmine : (s.processes i).renewing = .away) (document : StoredDocument) :
    (s.wrote i document).Safe writable := by
  unfold wrote
  rw [hmine]
  refine h.put haway (fun token htoken ↦ h.retired token (List.mem_of_mem_filter htoken)) ?_
    h.kept.overwritten
  intro token htoken hretired
  have hother := (List.mem_filter.mp hretired).2
  exact of_decide_eq_true hother htoken

theorem all_away {s : Vault ι} (hothers : ∀ j, j ≠ i → (s.processes j).renewing.token = none)
    (hmine : (s.processes i).renewing = .away) (j : ι) :
    (s.processes j).renewing.token = none := by
  by_cases hji : j = i
  · rw [hji, hmine]
    rfl
  · exact hothers j hji

theorem Safe.steps (h : s.Safe writable) {c : AuthCall} {answer : c.Answer}
    (hturn : s.Turn writable i c) (hundisturbed : s.Undisturbed i c)
    (hstep : s.Steps writable i c answer t) : t.Safe writable := by
  cases c with
  | acquire =>
    cases answer with
    | ok _ =>
      obtain ⟨hlock, rfl⟩ := hstep
      exact h.acquired hlock
    | error source => exact (show t = s from hstep) ▸ h
  | release =>
    obtain rfl : t = ({ s with lock := none } : Vault ι).goes i .away := hstep
    exact h.released hturn
  | load =>
    cases answer with
    | ok document =>
      obtain ⟨-, rfl⟩ := hstep
      split
      · next token hrenews =>
        split
        · next hcurrent =>
          have hlock := hturn.2 (by rw [hrenews]; exact fun h ↦ nomatch h)
          refine h.goes (fun other hother ↦ ?_) fun _ _ hmints ↦ hmints.elim
          obtain rfl : token = other := Option.some.inj hother
          exact ⟨hlock, hcurrent⟩
        · exact h
      · exact h
    | error source => exact (show t = s from hstep) ▸ h
  | ensureWritable =>
    cases answer with
    | ok _ => exact hstep.2 ▸ h
    | error source => exact (show t = s from hstep) ▸ h
  | send token =>
    obtain ⟨minted, hminted, rfl⟩ := hstep
    exact h.posted hturn.1 hturn.2 hminted
  | receive =>
    cases answer with
    | ok fresh =>
      obtain ⟨token, hsent, rfl⟩ := hstep
      exact h.answered hsent
    | error source => exact (show t = s from hstep) ▸ h
  | store document =>
    cases answer with
    | ok _ =>
      obtain rfl : t = s.wrote i document := hstep
      rcases hturn with haway | ⟨token, fresh, hminted, rfl⟩
      · exact h.signedIn (all_away hundisturbed haway) haway document
      · exact h.renewed hminted
    | error source => exact (show t = s from hstep) ▸ h
  | delete =>
    cases answer with
    | ok _ =>
      obtain rfl : t = s.puts none := hstep
      exact h.put (all_away hundisturbed hturn) h.retired (fun _ h ↦ nomatch h)
        h.kept.overwritten
    | error source => exact (show t = s from hstep) ▸ h
  | authenticated document => exact (show t = s from hstep) ▸ h
  | signIn => exact (show t = s from hstep) ▸ h

theorem Safe.started (h : s.Safe writable) (command : Auth.Command) :
    (s.starts i command).Safe writable := by
  have hprocesses : ∀ j, (s.starts i command).processes j =
      if j = i then ⟨command.renews, .away, [s.stored]⟩ else s.processes j :=
    fun j ↦ Function.update_apply _ _ _ _
  refine ⟨⟨h.kept.sent, h.kept.once, h.kept.overwritten⟩, ?_, ?_, h.retired, h.live, ?_⟩
  · intro j token hj
    rw [hprocesses] at hj
    split at hj
    · cases hj
    · next hji =>
      obtain ⟨hlock, hstored⟩ := h.flight j token hj
      refine ⟨?_, hstored⟩
      show (if s.lock = some i then none else s.lock) = some j
      rw [if_neg, hlock]
      intro hmine
      exact hji (Option.some.inj (hlock.symm.trans hmine))
  · intro j token fresh hj
    rw [hprocesses] at hj
    split at hj
    · cases hj
    · exact h.minted j token fresh hj
  · intro j
    rw [hprocesses]
    split
    · exact List.mem_singleton.mpr rfl
    · exact h.during j

/-! ## What the others leave alone -/

/-- The others neither move a renewal nor take the lock from it, and what was stored was stored. -/
structure Rely (i : ι) (s t : Vault ι) : Prop where
  renewing : (t.processes i).renewing = (s.processes i).renewing
  renews : (t.processes i).renews = (s.processes i).renews
  lock : s.lock = some i → t.lock = some i
  during : ∀ stored ∈ (s.processes i).during, stored ∈ (t.processes i).during

omit [DecidableEq ι] in
theorem rely_refl (i : ι) (s : Vault ι) : Rely i s s :=
  ⟨rfl, rfl, id, fun _ h ↦ h⟩

omit [DecidableEq ι] in
theorem rely_trans (i : ι) (s t u : Vault ι) (hst : Rely i s t) (htu : Rely i t u) :
    Rely i s u where
  renewing := htu.renewing.trans hst.renewing
  renews := htu.renews.trans hst.renews
  lock h := htu.lock (hst.lock h)
  during stored h := htu.during stored (hst.during stored h)

theorem rely_goes {u : Vault ι} (hji : j ≠ i) (hu : Rely j s u) (renewing : Renewing) :
    Rely j s (u.goes i renewing) := by
  have hsame : (u.goes i renewing).processes j = u.processes j := by
    rw [goes_processes, if_neg hji]
  refine ⟨?_, ?_, hu.lock, ?_⟩
  · rw [hsame, hu.renewing]
  · rw [hsame, hu.renews]
  · rw [hsame]
    exact hu.during

omit [DecidableEq ι] in
theorem rely_puts {u : Vault ι} (hu : Rely j s u) (stored : Option StoredDocument) :
    Rely j s (u.puts stored) :=
  ⟨hu.renewing, hu.renews, hu.lock, fun d hd ↦ List.mem_cons_of_mem _ (hu.during d hd)⟩

theorem Steps.rely {c : AuthCall} {answer : c.Answer} (hji : j ≠ i) (hturn : s.Turn writable i c)
    (hstep : s.Steps writable i c answer t) : Rely j s t := by
  cases c with
  | acquire =>
    cases answer with
    | ok _ =>
      obtain ⟨hlock, rfl⟩ := hstep
      refine ⟨rfl, rfl, fun hheld ↦ ?_, fun _ h ↦ h⟩
      rw [hlock] at hheld
      cases hheld
    | error source => exact (show t = s from hstep) ▸ rely_refl j s
  | release =>
    obtain rfl : t = ({ s with lock := none } : Vault ι).goes i .away := hstep
    refine rely_goes hji ?_ _
    refine ⟨rfl, rfl, fun hheld ↦ ?_, fun _ h ↦ h⟩
    exact absurd (Option.some.inj (hheld.symm.trans hturn)) hji
  | load =>
    cases answer with
    | ok document =>
      obtain ⟨-, rfl⟩ := hstep
      split
      · split
        · exact rely_goes hji (rely_refl j s) _
        · exact rely_refl j s
      · exact rely_refl j s
    | error source => exact (show t = s from hstep) ▸ rely_refl j s
  | ensureWritable =>
    cases answer with
    | ok _ => exact hstep.2 ▸ rely_refl j s
    | error source => exact (show t = s from hstep) ▸ rely_refl j s
  | send token =>
    obtain ⟨minted, -, rfl⟩ := hstep
    refine rely_goes hji ?_ _
    exact ⟨rfl, rfl, id, fun _ h ↦ h⟩
  | receive =>
    cases answer with
    | ok fresh =>
      obtain ⟨token, -, rfl⟩ := hstep
      exact rely_goes hji (rely_refl j s) _
    | error source => exact (show t = s from hstep) ▸ rely_refl j s
  | store document =>
    cases answer with
    | ok _ =>
      obtain rfl : t = s.wrote i document := hstep
      unfold wrote
      split
      · have hput := rely_puts (rely_goes hji (rely_refl j s) .away) (some document)
        exact ⟨hput.renewing, hput.renews, hput.lock, hput.during⟩
      · have hput := rely_puts (rely_refl j s) (some document)
        exact ⟨hput.renewing, hput.renews, hput.lock, hput.during⟩
    | error source => exact (show t = s from hstep) ▸ rely_refl j s
  | delete =>
    cases answer with
    | ok _ =>
      obtain rfl : t = s.puts none := hstep
      exact rely_puts (rely_refl j s) none
    | error source => exact (show t = s from hstep) ▸ rely_refl j s
  | authenticated document => exact (show t = s from hstep) ▸ rely_refl j s
  | signIn => exact (show t = s from hstep) ▸ rely_refl j s

theorem starts_rely (hji : j ≠ i) (command : Auth.Command) : Rely j s (s.starts i command) := by
  have hsame : (s.starts i command).processes j = s.processes j := Function.update_of_ne hji _ _
  refine ⟨by rw [hsame], by rw [hsame], fun hheld ↦ ?_, by rw [hsame]; exact fun _ h ↦ h⟩
  show (if s.lock = some i then none else s.lock) = some j
  rw [if_neg, hheld]
  intro hmine
  exact hji (Option.some.inj (hheld.symm.trans hmine))

end Vault

/-! ## The programs -/

section

variable {ι : Type} [DecidableEq ι]

/-- The calls of a process, each in its turn, while no sign-in or sign-out disturbs a renewal. -/
def vaultCalls (writable : ι → Bool) (i : ι) : Contract AuthCall AuthCall.Answer (Vault ι) where
  requires := Vault.Turn writable i
  steps := ((authCalls writable i).restrict (Vault.Undisturbed i)).steps

/-- The calls as one process sees them among the others. -/
abbrev sharedCalls (writable : ι → Bool) (i : ι) : Contract AuthCall AuthCall.Answer (Vault ι) :=
  (vaultCalls writable i).under (Vault.Safe writable) (Vault.Rely i)

def Stands (i : ι) (renewing : Renewing) (s : Vault ι) : Prop :=
  (s.processes i).renewing = renewing

def Renews (i : ι) (token : String) (s : Vault ι) : Prop :=
  (s.processes i).renews = some token ∧ s.lock = some i

namespace Auth

variable {writable : ι → Bool} {i : ι} {s : Vault ι} {α : Type} {token : String}

omit [DecidableEq ι] in
theorem stands_of_rely {t : Vault ι} {renewing : Renewing} (hrely : s.Rely i t)
    (h : Stands i renewing s) : Stands i renewing t :=
  hrely.renewing.trans h

omit [DecidableEq ι] in
theorem renews_of_rely {t : Vault ι} (hrely : s.Rely i t) (h : Renews i token s) :
    Renews i token t :=
  ⟨hrely.renews.trans h.1, hrely.lock h.2⟩

omit [DecidableEq ι] in
theorem held_of_rely {t : Vault ι} {fresh : UserAccessToken} (hrely : s.Rely i t)
    (h : s.Held i fresh) : t.Held i fresh := by
  obtain ⟨document, hdocument, hreads⟩ := h
  exact ⟨document, hrely.during _ hdocument, hreads⟩

theorem ask_wp {c : AuthCall} {f : c.Answer → AuthProgram α}
    {Q : Except AuthError α → Vault ι → Prop}
    (hcall : ∀ t, s.Rely i t → t.Safe writable → t.Turn writable i c ∧ ∀ answer u,
      t.Steps writable i c answer u → (sharedCalls writable i).wp (f answer) Q u) :
    (sharedCalls writable i).wp (ask c >>= f) Q s := by
  refine (Contract.wp_bind _ _).mpr ⟨fun t hrely hsafe ↦ (hcall t hrely hsafe).1, ?_⟩
  intro answer u hstep
  obtain ⟨t, hrely, hsafe, -, hstep⟩ := hstep
  exact (hcall t hrely hsafe).2 answer u hstep

/-- What a renewal returns was stored while it ran. -/
def Durable (i : ι) : Except AuthError UserAccessToken → Vault ι → Prop
  | .ok fresh, s => s.Held i fresh
  | .error _, _ => True

theorem release_wp {f : Unit → AuthProgram α} {Q : Except AuthError α → Vault ι → Prop}
    (hlock : s.lock = some i)
    (hnext : ∀ t, (∀ fresh, s.Held i fresh → t.Held i fresh) →
      (sharedCalls writable i).wp (f ()) Q t) :
    (sharedCalls writable i).wp (ask .release >>= f) Q s := by
  refine ask_wp fun t hrely _ ↦ ⟨hrely.lock hlock, fun answer u hstep ↦ hnext u ?_⟩
  obtain rfl : u = ({ t with lock := none } : Vault ι).goes i .away := hstep
  intro fresh hheld
  obtain ⟨document, hdocument, hreads⟩ := held_of_rely hrely hheld
  refine ⟨document, ?_, hreads⟩
  rw [Vault.goes_processes, if_pos rfl]
  exact hdocument

theorem failRenewal_wp (hlock : s.lock = some i) (error : RenewalError) :
    (sharedCalls writable i).wp (failRenewal error) (Durable i) s :=
  release_wp hlock fun _ _ ↦ trivial

/-- A renewal that has read its token exchanges it and stores what it gets. -/
theorem exchange_wp (h : Stands i (.read token) s) (hwritable : writable i = true)
    (hlock : s.lock = some i) :
    (sharedCalls writable i).wp (exchange token) (Durable i) s := by
  refine ask_wp fun t hrely _ ↦ ⟨⟨stands_of_rely hrely h, hwritable⟩, fun _ u hstep ↦ ?_⟩
  have hlocked : t.lock = some i := hrely.lock hlock
  obtain ⟨minted, -, rfl⟩ := hstep
  refine ask_wp fun v hrely _ ↦ ⟨trivial, fun answer w hstep ↦ ?_⟩
  have hlocked : v.lock = some i := hrely.lock hlocked
  cases answer with
  | error source =>
    obtain rfl : w = v := hstep
    exact failRenewal_wp hlocked _
  | ok fresh =>
    obtain ⟨spent, -, rfl⟩ := hstep
    have hminted : Stands i (.minted spent fresh) (v.goes i (.minted spent fresh)) := by
      show ((v.goes i _).processes i).renewing = _
      rw [Vault.goes_processes, if_pos rfl]
    refine ask_wp fun x hrely _ ↦
      ⟨.inr ⟨spent, fresh, stands_of_rely hrely hminted, rfl⟩, fun answer y hstep ↦ ?_⟩
    have hlocked : x.lock = some i := hrely.lock hlocked
    have hx : Stands i (.minted spent fresh) x := stands_of_rely hrely hminted
    cases answer with
    | error source =>
      obtain rfl : y = x := hstep
      exact failRenewal_wp hlocked _
    | ok _ =>
      obtain rfl : y = x.wrote i (toStoredDocument fresh) := hstep
      have hwrote : (x.wrote i (toStoredDocument fresh)).lock = some i ∧
          (x.wrote i (toStoredDocument fresh)).Held i fresh := by
        unfold Vault.wrote
        rw [hx]
        exact ⟨hlocked, toStoredDocument fresh, List.mem_cons_self,
          fromStoredDocument_toStoredDocument fresh⟩
      exact release_wp hwrote.1 fun z hheld ↦ hheld fresh hwrote.2

theorem renew_wp (h : Stands i .away s) (hrenews : (s.processes i).renews = some token) :
    (sharedCalls writable i).wp (renew token) (Durable i) s := by
  refine ask_wp fun t hrely _ ↦ ⟨trivial, fun answer u hstep ↦ ?_⟩
  cases answer with
  | error source => trivial
  | ok _ =>
    have hstands : Stands i .away t := stands_of_rely hrely h
    have hrenews : (t.processes i).renews = some token := hrely.renews.trans hrenews
    obtain ⟨-, rfl⟩ := hstep
    have hmine : Renews i token { t with lock := some i } := ⟨hrenews, rfl⟩
    have hstands : Stands i .away { t with lock := some i } := hstands
    refine ask_wp fun v hrely hsafe ↦
      ⟨⟨stands_of_rely hrely hstands, fun _ ↦ hrely.lock rfl⟩, fun answer w hstep ↦ ?_⟩
    have hv : Renews i token v := renews_of_rely hrely hmine
    cases answer with
    | error source =>
      obtain rfl : w = v := hstep
      exact failRenewal_wp hv.2 _
    | ok found =>
      obtain ⟨rfl, rfl⟩ := hstep
      rw [hv.1]
      dsimp only
      cases hstored : v.stored with
      | none => exact failRenewal_wp hv.2 _
      | some document =>
        dsimp only
        have hcurrent : Vault.refreshOf (some document) =
          (fromStoredDocument document).refreshToken := rfl
        rw [hcurrent]
        by_cases hsame : (fromStoredDocument document).refreshToken = some token
        · rw [if_pos hsame, if_neg (not_not.mpr hsame)]
          have hread : Stands i (.read token) (v.goes i (.read token)) := by
            show ((v.goes i _).processes i).renewing = _
            rw [Vault.goes_processes, if_pos rfl]
          refine ask_wp fun x hrely _ ↦ ⟨trivial, fun answer y hstep ↦ ?_⟩
          have hlocked : x.lock = some i := hrely.lock hv.2
          cases answer with
          | error source =>
            obtain rfl : y = x := hstep
            exact failRenewal_wp hlocked _
          | ok _ =>
            obtain ⟨hwritable, rfl⟩ := hstep
            exact exchange_wp (stands_of_rely hrely hread) hwritable hlocked
        · rw [if_neg hsame, if_pos hsame]
          refine release_wp hv.2 fun x hheld ↦ hheld _ ⟨document, ?_, rfl⟩
          exact hstored ▸ hsafe.during i

variable (ι) in
/-- A command that returns no credential begins and ends without a renewal on its way. -/
def Apart (p : AuthProgram Unit) : Prop :=
  ∀ (writable : ι → Bool) (i : ι) (s : Vault ι), Stands i .away s →
    (s.processes i).renews = none → (sharedCalls writable i).wp p (fun _ _ ↦ True) s

theorem store_wp {document : StoredDocument} {f : Except String Unit → AuthProgram Unit}
    (h : Stands i .away s)
    (hnext : ∀ answer t, (sharedCalls writable i).wp (f answer) (fun _ _ ↦ True) t) :
    (sharedCalls writable i).wp (ask (.store document) >>= f) (fun _ _ ↦ True) s :=
  ask_wp fun _ hrely _ ↦ ⟨.inl (stands_of_rely hrely h), fun answer u _ ↦ hnext answer u⟩

theorem signInAndStore_apart : Apart ι signInAndStore := by
  intro writable i s h _
  refine ask_wp fun t hrely _ ↦ ⟨trivial, fun answer u hstep ↦ ?_⟩
  obtain rfl : u = t := hstep
  cases answer with
  | error source => trivial
  | ok token =>
    refine store_wp (stands_of_rely hrely h) fun answer v ↦ ?_
    cases answer with
    | error source => trivial
    | ok _ => trivial

theorem login_apart : Apart ι login := by
  intro writable i s h hrenews
  refine ask_wp fun t hrely _ ↦ ?_
  have ht : (t.processes i).renews = none := hrely.renews.trans hrenews
  refine ⟨⟨stands_of_rely hrely h, fun hsome ↦ absurd ht hsome⟩, fun answer u hstep ↦ ?_⟩
  have hsign : ∀ v, t.Rely i v → (sharedCalls writable i).wp signInAndStore (fun _ _ ↦ True) v :=
    fun v hv ↦ signInAndStore_apart writable i v (stands_of_rely hv (stands_of_rely hrely h))
      (hv.renews.trans ht)
  cases answer with
  | error source =>
    obtain rfl : u = t := hstep
    exact hsign u (Vault.rely_refl i u)
  | ok found =>
    obtain ⟨-, rfl⟩ := hstep
    rw [ht]
    cases found with
    | none => exact hsign t (Vault.rely_refl i t)
    | some document =>
      refine ask_wp fun v hv _ ↦ ⟨trivial, fun answer w hstep ↦ ?_⟩
      obtain rfl : w = v := hstep
      cases answer with
      | error source => trivial
      | ok works =>
        cases works with
        | true => trivial
        | false => exact hsign w hv

theorem receive_apart (document : StoredDocument) : Apart ι (receive document) := by
  intro writable i s h _
  refine store_wp h fun answer t ↦ ?_
  cases answer with
  | error source => trivial
  | ok _ => trivial

theorem logout_apart : Apart ι logout := by
  intro writable i s h _
  refine ask_wp fun t hrely _ ↦ ⟨stands_of_rely hrely h, fun answer u _ ↦ ?_⟩
  cases answer with
  | error source => trivial
  | ok _ => trivial

/-- What a command returns was stored while it ran. -/
def Returned (i : ι) (result : Except AuthError (Option UserAccessToken)) (s : Vault ι) : Prop :=
  ∀ fresh, result = .ok (some fresh) → s.Held i fresh

theorem program_wp (command : Command) (s : Vault ι) :
    (sharedCalls writable i).wp command.program (Returned i) (s.starts i command) := by
  have hprocess : (s.starts i command).processes i = ⟨command.renews, .away, [s.stored]⟩ :=
    Function.update_self _ _ _
  have hstands : Stands i .away (s.starts i command) := by
    show ((s.starts i command).processes i).renewing = _
    rw [hprocess]
  have hrenews : ((s.starts i command).processes i).renews = command.renews := by
    rw [hprocess]
  -- A command that is not a renewal returns no credential.
  have hnone : ∀ p : AuthProgram Unit, Apart ι p → command.renews = none →
      (sharedCalls writable i).wp (p >>= fun _ ↦ pure none) (Returned i) (s.starts i command) := by
    intro p hp hother
    refine Contract.wp_seq (hp writable i _ hstands (hrenews.trans hother)) ?_ ?_
    · exact fun _ _ _ fresh hfresh ↦ nomatch hfresh
    · exact fun _ _ _ fresh hfresh ↦ nomatch hfresh
  cases command with
  | renew token =>
    refine Contract.wp_seq (renew_wp hstands hrenews) (fun fresh t ht ↦ ?_) ?_
    · intro other hother
      cases hother
      exact ht
    · exact fun _ _ _ fresh hfresh ↦ nomatch hfresh
  | login => exact hnone _ login_apart rfl
  | receive document => exact hnone _ (receive_apart document) rfl
  | logout => exact hnone _ logout_apart rfl

end Auth

variable {writable : ι → Bool} {P : AuthPool ι}

omit [DecidableEq ι] in
theorem AuthPool.Starts.safe (h : P.Starts) : P.shared.Safe writable := by
  refine ⟨⟨?_, ?_, ?_⟩, ?_, ?_, ?_, ?_, ?_⟩
  · rw [h.sends]
    exact fun _ hentry ↦ nomatch hentry
  · rw [h.spent]
    exact .nil
  · rw [h.overwrites]
    exact fun _ hentry ↦ nomatch hentry
  · intro i token hi
    rw [h.processes] at hi
    cases hi
  · intro i token fresh hi
    rw [h.processes] at hi
    cases hi
  · rw [h.retired]
    exact fun _ hentry ↦ nomatch hentry
  · intro token _
    rw [h.retired]
    exact fun hentry ↦ nomatch hentry
  · intro i
    rw [h.processes]
    exact List.mem_singleton.mpr rfl

/-- In every run of processes, started and stopped anywhere, where no sign-in or sign-out writes
while a renewal is between its read and its write: a refresh token is sent under the lock, by a
process that can write, while it is stored; none is exchanged twice; a renewal writes over the pair
that it exchanged; and what it returns was stored while it ran. -/
theorem credential_kept
    (h : Contract.Opened (fun i ↦ (authCalls writable i).restrict (Vault.Undisturbed i))
      AuthPool.Starts AuthPool.Opens (fun _ _ ↦ False) P) :
    P.shared.Kept writable ∧
      ∀ i fresh, P.point i = .done (.ok (some fresh)) → P.shared.Held i fresh := by
  have hsteps : ∀ (i : ι) s c a t,
      ((authCalls writable i).restrict (Vault.Undisturbed i)).steps s c a t →
      (vaultCalls writable i).steps s c a t := fun _ _ _ _ _ hstep ↦ hstep
  have hrun := h.of_steps hsteps
  have hmeets : Contract.Opened.Meets (vaultCalls writable) (Vault.Safe writable) Vault.Rely
      Auth.Returned P := by
    refine hrun.sound Vault.rely_refl Vault.rely_trans ?_ ?_ ?_ ?_ fun _ _ _ hmove ↦ hmove.elim
    · exact fun i result s t hrely hs fresh hfresh ↦ Auth.held_of_rely hrely (hs fresh hfresh)
    · intro P hstart
      refine ⟨hstart.safe, fun i ↦ ?_⟩
      rw [hstart.points]
      exact fun fresh hfresh ↦ nomatch hfresh
    · intro i s c a t hsafe hturn hstep
      exact ⟨hsafe.steps hturn hstep.1 hstep.2, fun j hji ↦ hstep.2.rely hji hturn⟩
    · intro i s p t q hsafe _ hopens
      obtain ⟨command, rfl, rfl⟩ := hopens
      exact ⟨⟨hsafe.started command, fun j hji ↦ Vault.starts_rely hji command⟩,
        Auth.program_wp command s⟩
  refine ⟨hmeets.1.kept, fun i fresh hpoint ↦ ?_⟩
  have hi := hmeets.2 i
  rw [hpoint] at hi
  exact hi fresh rfl

end

def signedIn : AuthPool (Fin 2) where
  point _ := .done (.ok none)
  shared :=
    { stored := some (toStoredDocument ⟨"t0", some "r0"⟩), lock := none, spent := []
      processes := fun _ ↦ ⟨none, .away, [some (toStoredDocument ⟨"t0", some "r0"⟩)]⟩
      retired := [], sends := [], overwrites := [] }

theorem others_away {s : Vault (Fin 2)} {i : Fin 2}
    (h : (s.processes (1 - i)).renewing.token = none)
    (j : Fin 2) (hji : j ≠ i) : (s.processes j).renewing.token = none := by
  have hj : j = 1 - i := by omega
  rw [hj]
  exact h

theorem signedIn_starts : signedIn.Starts :=
  ⟨fun _ ↦ rfl, fun _ ↦ rfl, rfl, rfl, rfl, rfl, rfl⟩

/-- A renewal runs to its end, and then the operator signs out. -/
theorem renewed_then_signed_out : ∃ P : AuthPool (Fin 2),
    Contract.Opened (fun i ↦ (authCalls (fun _ ↦ true) i).restrict (Vault.Undisturbed i))
      AuthPool.Starts AuthPool.Opens (fun _ _ ↦ False) P ∧
    P.point 0 = .done (.ok (some ⟨"t1", some "r1"⟩)) ∧ P.shared.stored.isNone = true ∧
    P.shared.Kept (fun _ ↦ true) ∧ P.shared.Held 0 ⟨"t1", some "r1"⟩ := by
  have h₀ : Contract.Opened (fun i ↦ (authCalls (fun _ ↦ true) i).restrict (Vault.Undisturbed i))
      AuthPool.Starts AuthPool.Opens (fun _ _ ↦ False) signedIn := .start signedIn_starts
  have h₁ := h₀.restart 0 _ _ ⟨.renew "r0", rfl, rfl⟩
  have h₂ := h₁.advance 0 .acquire (.ok ()) _ rfl ⟨trivial, rfl, rfl⟩
  have h₃ := h₂.advance 0 .load (.ok (some (toStoredDocument ⟨"t0", some "r0"⟩))) _ rfl
    ⟨trivial, rfl, rfl⟩
  have h₄ := h₃.advance 0 .ensureWritable (.ok ()) _ rfl ⟨trivial, rfl, rfl⟩
  have h₅ := h₄.advance 0 (.send "r0") () _ rfl
    ⟨trivial, some ⟨"t1", some "r1"⟩, fun _ hfresh ↦ by cases hfresh; decide, rfl⟩
  have h₆ := h₅.advance 0 .receive (.ok ⟨"t1", some "r1"⟩) _ rfl ⟨trivial, "r0", rfl, rfl⟩
  have h₇ := h₆.advance 0 (.store (toStoredDocument ⟨"t1", some "r1"⟩)) (.ok ()) _ rfl
    ⟨others_away rfl, rfl⟩
  have h₈ := h₇.advance 0 .release () _ rfl ⟨trivial, rfl⟩
  have h₉ := h₈.restart 1 _ _ ⟨.logout, rfl, rfl⟩
  have k₁ := h₉.advance 1 .delete (.ok ()) _ rfl ⟨others_away rfl, rfl⟩
  have hkept := credential_kept k₁
  exact ⟨_, k₁, rfl, rfl, hkept.1, hkept.2 0 _ rfl⟩

/-- The operator signs out while a renewal is on its way: it puts back what was removed. -/
theorem restored_after_logout : ∃ P : AuthPool (Fin 2),
    Contract.Opened (authCalls fun _ ↦ true) AuthPool.Starts AuthPool.Opens (fun _ _ ↦ False) P ∧
    ¬ P.shared.Kept (fun _ ↦ true) := by
  have h₀ : Contract.Opened (authCalls fun _ : Fin 2 ↦ true) AuthPool.Starts AuthPool.Opens
      (fun _ _ ↦ False) signedIn := .start signedIn_starts
  have h₁ := h₀.restart 0 _ _ ⟨.renew "r0", rfl, rfl⟩
  have h₂ := h₁.advance 0 .acquire (.ok ()) _ rfl ⟨rfl, rfl⟩
  have h₃ := h₂.advance 0 .load (.ok (some (toStoredDocument ⟨"t0", some "r0"⟩))) _ rfl
    ⟨rfl, rfl⟩
  have h₄ := h₃.advance 0 .ensureWritable (.ok ()) _ rfl ⟨rfl, rfl⟩
  have h₅ := h₄.advance 0 (.send "r0") () _ rfl
    ⟨some ⟨"t1", some "r1"⟩, fun _ hfresh ↦ by cases hfresh; decide, rfl⟩
  have h₆ := h₅.advance 0 .receive (.ok ⟨"t1", some "r1"⟩) _ rfl ⟨"r0", rfl, rfl⟩
  have k₁ := h₆.restart 1 _ _ ⟨.logout, rfl, rfl⟩
  have k₂ := k₁.advance 1 .delete (.ok ()) _ rfl rfl
  -- The renewal has asked for the lock, and the sign-out has not.
  have k₃ := k₂.advance 0 (.store (toStoredDocument ⟨"t1", some "r1"⟩)) (.ok ()) _ rfl rfl
  refine ⟨_, k₃, fun h ↦ ?_⟩
  have hover := h.overwritten ⟨"r0", none⟩ (List.mem_singleton.mpr rfl)
  cases hover

end RunnerManager.App
