import Mathlib.Algebra.Order.Ring.Nat
import EventPipeline.Analysis.Quiescence
import EventPipeline.Analysis.RecordConsistency
import EventPipeline.Analysis.Recovery

/-!
# Every delivery is completed

After a stale reset that is late enough, any number of workers take the open deliveries to their
end, in any order and whatever the endpoints answer, as long as no worker dies and no exception
escapes, also not for want of a date of the retry. Each POST that fails raises the counter of its
row, so a row is open at most as often as the settings allow, and a claim moves work from the table
to a batch. So the work left gets less with every step, and when the workers have nothing left to
do, also later, no row is open.
-/

set_option autoImplicit false

namespace EventPipeline.Analysis

open EventPipeline.Model EventPipeline.Program EventPipeline.Interface EventPipeline.Computation

/-! ## The work that is left -/

/-- Eight steps at most for each POST that is left, with a part of a claim. -/
def postsWork (cfg : Settings) (attempt : DeliveryAttempt) : ℕ :=
  8 * (cfg.deliveryMaxAttempts - attempt.attemptCount)

/-- The work on an open row that no claim has locked. -/
def rowWork (cfg : Settings) (d : Delivery) (id : Uuid) : ℕ :=
  if id ∈ d.locked then 0
  else
    match lookup DeliveryAttempt.id id d.attempts with
    | some row =>
      if row.status = .pending ∨ row.status = .failed then postsWork cfg row + 8 else 0
    | none => 0

def todoWork (cfg : Settings) (todo : List Snapshot) : ℕ :=
  (todo.map fun x => postsWork cfg x.attempt + 5).sum

/-- The work of a worker on its batch, and what may come back to the table from it. -/
def phaseWork (cfg : Settings) : WorkerPhase → ℕ
  | .idle => 0
  | .claiming _ picked => todoWork cfg picked + 2
  | .delivering todo => todoWork cfg todo + 1
  | .fetched x _ todo => todoWork cfg todo + postsWork cfg x.attempt + 5
  | .posting x _ todo => todoWork cfg todo + postsWork cfg x.attempt + 4
  | .posted x _ _ todo => todoWork cfg todo + postsWork cfg x.attempt + 3

/-- The items of work are the rows and the workers. -/
def deliveryWork (cfg : Settings) (d : Delivery) : Uuid ⊕ WorkerId → ℕ
  | .inl id => rowWork cfg d id
  | .inr w => phaseWork cfg (d.workers w).phase

section
variable {cfg : Settings} {d d' : Delivery} {w : WorkerId} {x : Snapshot} {todo : List Snapshot}

/-- An empty batch is no work. -/
@[simp] theorem todoWork_nil : todoWork cfg [] = 0 := rfl

/-- Each row of a batch is work of its own. -/
@[simp] theorem todoWork_cons :
    todoWork cfg (x :: todo) = postsWork cfg x.attempt + 5 + todoWork cfg todo := by
  simp [todoWork]

/-- A locked row is the work of the worker that holds it. -/
theorem rowWork_of_locked {id : Uuid} (h : id ∈ d.locked) : rowWork cfg d id = 0 := if_pos h

/-- A row that is not open is no work. -/
theorem rowWork_of_closed {id : Uuid} {row : DeliveryAttempt}
    (hl : lookup DeliveryAttempt.id id d.attempts = some row) (hrow : ¬ Open row) :
    rowWork cfg d id = 0 := by
  unfold rowWork
  split
  · rfl
  · rw [hl]
    exact if_neg hrow

/-- An open row is work for the POSTs it has left and for one claim. -/
theorem rowWork_of_open {id : Uuid} {row : DeliveryAttempt} (hid : id ∉ d.locked)
    (hl : lookup DeliveryAttempt.id id d.attempts = some row) (hrow : Open row) :
    rowWork cfg d id = postsWork cfg row + 8 := by
  rw [rowWork, if_neg hid, hl]
  exact if_pos hrow

/-- The work on a row depends on the row and on its lock. -/
theorem rowWork_congr {id : Uuid} (hlock : id ∈ d'.locked ↔ id ∈ d.locked)
    (hl : lookup DeliveryAttempt.id id d'.attempts = lookup DeliveryAttempt.id id d.attempts) :
    rowWork cfg d' id = rowWork cfg d id := by
  unfold rowWork
  rw [hl]
  by_cases h : id ∈ d.locked
  · rw [if_pos h, if_pos (hlock.2 h)]
  · rw [if_neg h, if_neg (fun h' => h (hlock.1 h'))]

/-- A step of worker `w` that leaves the rows and their locks alone. -/
theorem lowersOn_worker (hattempts : d'.attempts = d.attempts) (hlocks : d'.rowLocks = d.rowLocks)
    (hothers : ∀ w', w' ≠ w → d'.workers w' = d.workers w')
    (hlt : phaseWork cfg (d'.workers w).phase < phaseWork cfg (d.workers w).phase) :
    ∃ S, LowersOn (deliveryWork cfg) d d' S := by
  refine ⟨{.inr w}, KeepsOthers.lowersOn (i := Sum.inr w) (fun i hi => ?_) hlt⟩
  cases i with
  | inl id =>
    refine rowWork_congr ?_ (by rw [hattempts])
    rw [Delivery.locked, Delivery.locked, hlocks]
  | inr w' =>
    have hne : w' ≠ w := fun heq => hi (heq ▸ rfl)
    exact congrArg (fun x => phaseWork cfg x.phase) (hothers w' hne)

/-- A step of worker `w` that also writes the row `id`. -/
theorem lowersOn_row (id : Uuid) (hlocks : d'.rowLocks = d.rowLocks)
    (hrows : ∀ id', id' ≠ id →
      lookup DeliveryAttempt.id id' d'.attempts = lookup DeliveryAttempt.id id' d.attempts)
    (hothers : ∀ w', w' ≠ w → d'.workers w' = d.workers w')
    (hlt : rowWork cfg d' id + phaseWork cfg (d'.workers w).phase <
      phaseWork cfg (d.workers w).phase) :
    ∃ S, LowersOn (deliveryWork cfg) d d' S := by
  have hne : (Sum.inl id : Uuid ⊕ WorkerId) ≠ .inr w := Sum.inl_ne_inr
  refine ⟨{.inl id, .inr w}, ?_, fun i hi => ?_⟩
  · rw [Finset.sum_pair hne, Finset.sum_pair hne]
    exact hlt.trans_le (Nat.le_add_left _ _)
  · simp only [Finset.mem_insert, Finset.mem_singleton, not_or] at hi
    cases i with
    | inl id' =>
      refine rowWork_congr ?_ (hrows id' fun heq => hi.1 (heq ▸ rfl))
      rw [Delivery.locked, Delivery.locked, hlocks]
    | inr w' =>
      have hw : w' ≠ w := fun heq => hi.2 (heq ▸ rfl)
      exact congrArg (fun x => phaseWork cfg x.phase) (hothers w' hw)

/-! ## The claim -/

/-- What the claimed rows were worth is worth more than the batch. -/
theorem todoWork_picked {keys : List IdempotencyKey} {t₀ : Time} {picks : List Uuid}
    (hn : (d.attempts.map DeliveryAttempt.id).Nodup)
    (hp : ∀ id ∈ picks, id ∉ d.locked ∧
      ∃ x, snapshotOf d.attempts keys id = some x ∧ claimable t₀ x.attempt = true) :
    todoWork cfg (picks.filterMap (snapshotOf d.attempts keys)) + 3 * picks.length =
      (picks.map (rowWork cfg d)).sum := by
  induction picks with
  | nil => rfl
  | cons id picks ih =>
    obtain ⟨hlock, x, hx, hc⟩ := hp id List.mem_cons_self
    obtain ⟨hmem, hid, _⟩ := of_snapshotOf hx
    have hl : lookup DeliveryAttempt.id id d.attempts = some x.attempt :=
      hid ▸ lookup_of_mem hn hmem
    have hrest := ih fun id' hid' => hp id' (List.mem_cons_of_mem _ hid')
    rw [List.filterMap_cons_some hx, todoWork_cons, List.map_cons, List.sum_cons,
      rowWork_of_open hlock hl (open_of_claimable hc), List.length_cons]
    omega

/-- The claim locks the rows that it takes. SOURCE: app/delivery/worker.py:63-81 -/
theorem lowersOn_claim {keys : List IdempotencyKey} {t₀ : Time} {picks : List Uuid}
    (hlock : LockInv d) (hph : (d.workers w).phase = .idle) (hne : picks ≠ []) (hn : picks.Nodup)
    (hp : ∀ id ∈ picks, id ∉ d.locked ∧
      ∃ x, snapshotOf d.attempts keys id = some x ∧ claimable t₀ x.attempt = true)
    (hd' : d' = ({ d with rowLocks := d.rowLocks ++ picks.map fun id => (w, id) } :
      Delivery).setPhase w (.claiming t₀ (picks.filterMap (snapshotOf d.attempts keys)))) :
    ∃ S, LowersOn (deliveryWork cfg) d d' S := by
  have hlocked : ∀ id, id ∈ d'.locked ↔ id ∈ d.locked ∨ id ∈ picks := by
    intro id
    subst hd'
    simp [Delivery.locked, Delivery.setPhase, Delivery.setWorker]
  have hnew : ∀ id ∈ picks, rowWork cfg d' id = 0 :=
    fun id hid => rowWork_of_locked ((hlocked id).2 (Or.inr hid))
  have hnotin : Sum.inr w ∉ picks.toFinset.image (Sum.inl : Uuid → Uuid ⊕ WorkerId) := by simp
  have hsum : ∀ e, ∑ i ∈ insert (Sum.inr w) (picks.toFinset.image Sum.inl), deliveryWork cfg e i =
      phaseWork cfg (e.workers w).phase + (picks.map (rowWork cfg e)).sum := by
    intro e
    rw [Finset.sum_insert hnotin, Finset.sum_image fun _ _ _ _ h => Sum.inl_injective h]
    exact congrArg _ (List.sum_toFinset (rowWork cfg e) hn)
  refine ⟨insert (.inr w) (picks.toFinset.image .inl), ?_, fun i hi => ?_⟩
  · have hzero : (picks.map (rowWork cfg d')).sum = 0 := by
      rw [List.map_congr_left hnew]
      simp
    have hpos : 0 < picks.length := List.length_pos_iff.2 hne
    have hwork : todoWork cfg (picks.filterMap (snapshotOf d.attempts keys)) + 3 * picks.length =
        (picks.map (rowWork cfg d)).sum := todoWork_picked hlock.ids_nodup hp
    rw [hsum, hsum, hzero, hph, ← hwork, hd']
    simp only [Delivery.setPhase_eq, Delivery.setWorker_workers, Function.update_self, phaseWork]
    omega
  · simp only [Finset.mem_insert, Finset.mem_image, List.mem_toFinset, not_or, not_exists,
      not_and] at hi
    cases i with
    | inl id =>
      have hid : id ∉ picks := fun hmem => hi.2 id hmem rfl
      refine rowWork_congr ?_ (by rw [hd']; rfl)
      rw [hlocked]
      exact or_iff_left hid
    | inr w' =>
      have hw : w' ≠ w := fun heq => hi.1 (heq ▸ rfl)
      subst hd'
      simp [deliveryWork, hw]

/-- The marked rows were locked before and are in flight now.
SOURCE: app/delivery/worker.py:83-89 -/
theorem lowersOn_claimCommit {t₀ : Time} {picked : List Snapshot} (hlock : LockInv d)
    (hph : (d.workers w).phase = .claiming t₀ picked)
    (hd' : d' = ({ d.unlock w with
      attempts := markInFlight (picked.map fun x => x.attempt.id) t₀ d.attempts } :
        Delivery).setWorker w
      ⟨.delivering picked, (d.workers w).held ++ picked.map fun x => x.attempt.id⟩) :
    ∃ S, LowersOn (deliveryWork cfg) d d' S := by
  have hlocks : ∀ id, (w, id) ∈ d.rowLocks ↔ id ∈ picked.map fun x => x.attempt.id := by
    intro id
    rw [hlock.lock_iff, hph]
    constructor
    · rintro ⟨_, _, heq, hid⟩
      cases heq
      exact hid
    · exact fun hid => ⟨t₀, picked, rfl, hid⟩
  refine ⟨{.inr w}, KeepsOthers.lowersOn (i := Sum.inr w) (fun i hi => ?_) ?_⟩
  · cases i with
    | inl id =>
      show rowWork cfg d' id = rowWork cfg d id
      by_cases hid : id ∈ picked.map fun x => x.attempt.id
      · have hlocked : id ∈ d.locked := mem_locked.2 ⟨w, (hlocks id).2 hid⟩
        obtain ⟨row, hrow, rfl, _⟩ := hlock.lock_row id hlocked
        have hmarked : lookup DeliveryAttempt.id row.id d'.attempts =
            some { row with status := .inFlight, updatedAt := t₀ } := by
          subst hd'
          refine (lookup_updateWhere ?_ d.attempts).trans ?_
          · exact fun _ _ => rfl
          · rw [lookup_of_mem hlock.ids_nodup hrow, Option.map_some, if_pos hid]
        rw [rowWork_of_locked hlocked, rowWork_of_closed hmarked (by simp [Open])]
      · refine rowWork_congr ?_ ?_
        · have hw : (w, id) ∉ d.rowLocks := fun h => hid ((hlocks id).1 h)
          rw [mem_locked, mem_locked, hd']
          refine exists_congr fun w' => ?_
          simp only [Delivery.setWorker_rowLocks, Delivery.unlock, List.mem_filter,
            decide_eq_true_eq, and_iff_left_iff_imp]
          rintro hmem rfl
          exact hw hmem
        · rw [hd']
          refine lookup_updateWhere_of_not (fun _ _ => rfl) ?_
          rintro r rfl
          exact hid
    | inr w' =>
      have hw : w' ≠ w := fun heq => hi (heq ▸ rfl)
      subst hd'
      simp [deliveryWork, hw]
  · subst hd'
    simp [deliveryWork, hph, phaseWork]

/-! ## The end of one row -/

/-- A bound on the work of a row, by cases on what the table has. -/
theorem rowWork_le {id : Uuid} {n : ℕ}
    (h : ∀ row, lookup DeliveryAttempt.id id d.attempts = some row → Open row →
      postsWork cfg row + 8 ≤ n) : rowWork cfg d id ≤ n := by
  unfold rowWork
  split
  · exact Nat.zero_le n
  · split
    · rename_i row hl
      split
      · rename_i hopen
        exact h row hl hopen
      · exact Nat.zero_le n
    · exact Nat.zero_le n

/-- A row is opened again only while attempts are left. SOURCE: app/delivery/worker.py:134-158 -/
theorem lt_of_finalUpdate {attempt row : DeliveryAttempt} {r : DeliveryResult}
    {now : Time} {k : Draw} {u : FinalUpdate} (h : finalUpdate cfg attempt r now k = some u)
    (hopen : Open (u.apply attempt r now row)) :
    attempt.attemptCount + 1 < cfg.deliveryMaxAttempts := by
  have hstatus : u.status = .pending ∨ u.status = .failed := hopen
  unfold finalUpdate at h
  split at h
  · cases h
    simp at hstatus
  · split at h
    · cases h
      simp at hstatus
    · exact Nat.lt_of_not_le ‹_›

/-- A worker that leaves the row `x` with an update of it: if the row is open again, it is worth
less than before. -/
theorem lowersOn_update {f : DeliveryAttempt → DeliveryAttempt} {held : List Uuid}
    (hd' : d' = ({ d with attempts := updateAttempt x.attempt.id f d.attempts } :
      Delivery).setWorker w ⟨.delivering todo, held⟩)
    (hf : ∀ row, (f row).id = row.id)
    (hopen : ∀ row, Open (f row) → postsWork cfg (f row) + 8 ≤ postsWork cfg x.attempt)
    (hph : todoWork cfg todo + postsWork cfg x.attempt + 1 < phaseWork cfg (d.workers w).phase) :
    ∃ S, LowersOn (deliveryWork cfg) d d' S := by
  refine lowersOn_row x.attempt.id (by rw [hd']; rfl) (fun id' hid' => ?_)
    (fun w' hw' => by rw [hd', Delivery.setWorker_workers, Function.update_of_ne hw']) ?_
  · rw [hd']
    refine lookup_updateWhere_of_not (fun r _ => hf r) ?_
    rintro r rfl
    exact hid'
  · have hrow : rowWork cfg d' x.attempt.id ≤ postsWork cfg x.attempt := by
      refine rowWork_le fun row' hl hrow' => ?_
      rw [hd', Delivery.setWorker_attempts] at hl
      obtain ⟨hmem, hid⟩ := of_lookup_eq_some hl
      obtain ⟨_, hnot⟩ | ⟨row, _, _, rfl⟩ := of_mem_updateWhere hmem
      · exact absurd hid hnot
      · exact hopen row hrow'
    have hleft : phaseWork cfg (d'.workers w).phase = todoWork cfg todo + 1 := by
      rw [hd', Delivery.setWorker_workers, Function.update_self, phaseWork]
    rw [hleft]
    omega

/-- The final update of a row. SOURCE: app/delivery/worker.py:125-174 -/
theorem lowersOn_writeBack {r : DeliveryResult} {at' : Time} {k : Draw} {u : FinalUpdate}
    {held : List Uuid} (hph : (d.workers w).phase = .posted x r at' todo)
    (hu : finalUpdate cfg x.attempt r at' k = some u)
    (hd' : d' = ({ d with
      attempts := updateAttempt x.attempt.id (u.apply x.attempt r at') d.attempts } :
        Delivery).setWorker w ⟨.delivering todo, held⟩) :
    ∃ S, LowersOn (deliveryWork cfg) d d' S := by
  refine lowersOn_update hd' (fun _ => rfl) (fun row hopen => ?_) ?_
  · have hlt := lt_of_finalUpdate hu hopen
    simp only [postsWork, FinalUpdate.apply]
    omega
  · rw [hph, phaseWork]
    omega

/-- A row of a subscriber that does not receive. SOURCE: app/delivery/worker.py:109-117 -/
theorem lowersOn_close {now : Time} {sub : Option Subscriber} {held : List Uuid}
    (hph : (d.workers w).phase = .fetched x sub todo)
    (hd' : d' = ({ d with attempts := closeInactive x.attempt now d.attempts } :
      Delivery).setWorker w ⟨.delivering todo, held⟩) :
    ∃ S, LowersOn (deliveryWork cfg) d d' S := by
  refine lowersOn_update hd' (fun _ => rfl) (fun row hopen => ?_) ?_
  · simp [Open] at hopen
  · rw [hph, phaseWork]
    omega

end

/-! ## Workers that serve -/

/-- A step of a batch in which nothing fails but the endpoint.
SOURCE: app/delivery/worker.py:58-174 -/
def Serves : Action → Prop
  | .worker _ (.resetStale _) => False
  | .worker _ b => Succeeds b
  | _ => False

instance decidableServes : DecidablePred Serves
  | .worker _ (.postEnds o) => inferInstanceAs (Decidable (Succeeds (.postEnds o)))
  | .worker _ (.claim _ _) | .worker _ .claimCommit | .worker _ .fetch | .worker _ .close
  | .worker _ .post | .worker _ (.writeBack _) | .worker _ .finish =>
    inferInstanceAs (Decidable True)
  | .worker _ (.resetStale _) | .worker _ .dbError | .worker _ .crash =>
    inferInstanceAs (Decidable False)
  | .tick _ | .publish _ _ | .handler _ _ | .reconciler _ _ | .subscriber _ _ | .retry _ _ =>
    inferInstanceAs (Decidable False)

/-- The action is no step of a batch and leaves the deliveries alone. -/
def isBystander : Action → Bool
  | .tick _ | .publish _ _ | .reconciler _ _ | .subscriber _ _ => true
  | .handler _ (.commit _) | .handler _ (.commitLost _) => false
  | .handler _ _ => true
  | .worker _ (.resetStale _) => true
  | .worker _ _ | .retry _ _ => false

/-- A stale reset that finds no row: no batch takes longer than the threshold.
SOURCE: app/delivery/worker.py:178-186 -/
def ResetsNothing (cfg : Settings) (s : World) : Action → Prop
  | .worker _ (.resetStale T) => ∀ row ∈ s.delivery.attempts, staleInFlight cfg T row = false
  | _ => True

instance decidableResetsNothing (cfg : Settings) (s : World) :
    DecidablePred (ResetsNothing cfg s)
  | .worker _ (.resetStale T) =>
    inferInstanceAs (Decidable (∀ row ∈ s.delivery.attempts, staleInFlight cfg T row = false))
  | .worker _ (.claim _ _) | .worker _ .claimCommit | .worker _ .fetch | .worker _ .close
  | .worker _ .post | .worker _ (.postEnds _) | .worker _ (.writeBack _) | .worker _ .finish
  | .worker _ .dbError | .worker _ .crash => inferInstanceAs (Decidable True)
  | .tick _ | .publish _ _ | .handler _ _ | .reconciler _ _ | .subscriber _ _ | .retry _ _ =>
    inferInstanceAs (Decidable True)

/-- The steps while workers serve and no work is added. -/
def Calm (cfg : Settings) (s : World) (a : Action) : Prop :=
  (Serves a ∧ DatesRetries cfg s a) ∨ isBystander a = true ∧ ResetsNothing cfg s a

instance decidableCalm (cfg : Settings) (s : World) : DecidablePred (Calm cfg s) := fun a =>
  inferInstanceAs (Decidable
    ((Serves a ∧ DatesRetries cfg s a) ∨ isBystander a = true ∧ ResetsNothing cfg s a))

/-- The action may add deliveries or open one again. SOURCE: app/consumer/rabbitmq.py:74-93,
app/api/deliveries.py:50-73 -/
def addsWork : Action → Bool
  | .handler _ (.commit _) | .handler _ (.commitLost _) | .retry _ _ => true
  | _ => false

/-- The steps while workers serve. -/
def Serving (cfg : Settings) (s : World) (a : Action) : Prop := Calm cfg s a ∨ addsWork a = true

instance decidableServing (cfg : Settings) (s : World) : DecidablePred (Serving cfg s) := fun a =>
  inferInstanceAs (Decidable (Calm cfg s a ∨ addsWork a = true))

section
variable {cfg : Settings} {s s' : World} {a : Action}

/-- A step of a serving worker is no step of a bystander. -/
theorem isBystander_of_serves (ha : Serves a) : isBystander a = false := by
  cases a with
  | worker w b =>
    cases b with
    | resetStale _ => exact ha.elim
    | _ => rfl
  | _ => exact ha.elim

/-- Every step of a worker that serves uses up work. -/
theorem lowersOn_of_serves (hreach : Reachable (step cfg) World.init s) (ha : Serves a)
    (hs : step cfg s a = some s') :
    ∃ S, LowersOn (deliveryWork cfg) s.delivery s'.delivery S := by
  have hlock := lockInv_of_reachable hreach
  cases worldStep_of_eq_some hs with
  | worker h =>
    have hothers := fun w' (hw : w' ≠ _) => h.frame hw
    cases h with
    | claim hph _ hne hn _ hp => exact lowersOn_claim hlock hph hne hn hp rfl
    | claimCommit hph => exact lowersOn_claimCommit hlock hph rfl
    | fetch hph =>
      refine lowersOn_worker rfl rfl hothers ?_
      simp [hph, phaseWork]
      omega
    | close hph _ _ => exact lowersOn_close hph rfl
    | post hph _ =>
      refine lowersOn_worker rfl rfl hothers ?_
      simp [hph, phaseWork]
    | returned hph _ =>
      refine lowersOn_worker rfl rfl hothers ?_
      simp [hph, phaseWork]
    | escaped hph _ =>
      refine lowersOn_worker rfl rfl hothers ?_
      simp [hph, phaseWork]
    | writeBack hph _ hw =>
      obtain ⟨u, hu, rfl⟩ := writeBack_eq_some hw
      exact lowersOn_writeBack hph hu rfl
    | writeBackRaised hph _ =>
      refine lowersOn_worker rfl rfl hothers ?_
      simp [hph, phaseWork]
    | finish hph =>
      refine lowersOn_worker rfl rfl hothers ?_
      simp [hph, phaseWork]
    | dbError => exact ha.elim
    | resetStale _ => exact ha.elim
    | crash => exact ha.elim
  | _ => exact ha.elim

/-! ## No row is left alone -/

/-- Some worker has the row in its batch. -/
def InBatch (d : Delivery) (id : Uuid) : Prop :=
  ∃ w, id ∈ (d.workers w).phase.batch.map fun x => x.attempt.id

/-- Every row in flight is in a batch, and every result can be written back. -/
structure Attended (s : World) : Prop where
  row : ∀ row ∈ s.delivery.attempts, row.status = .inFlight → InBatch s.delivery row.id
  result : ∀ w x r at' todo, (s.delivery.workers w).phase = .posted x r at' todo →
    (r.success || Json.storable (errorText r)) = true

/-- A row stays in a batch when its worker keeps it there. -/
theorem InBatch.of_worker {d d' : Delivery} {w : WorkerId} {id : Uuid} (h : InBatch d id)
    (hothers : ∀ w', w' ≠ w → d'.workers w' = d.workers w')
    (hbatch : (id ∈ (d.workers w).phase.batch.map fun x => x.attempt.id) →
      id ∈ (d'.workers w).phase.batch.map fun x => x.attempt.id) : InBatch d' id := by
  obtain ⟨w', hid⟩ := h
  by_cases hw : w' = w
  · subst hw
    exact ⟨w', hbatch hid⟩
  · exact ⟨w', (hothers w' hw).symm ▸ hid⟩

/-- The result that a serving worker holds can be written back. SOURCE: app/delivery/sender.py:65-90
-/
theorem result_of_serves (hinv : Attended s) (ha : Serves a) (hs : step cfg s a = some s')
    {w : WorkerId} {x : Snapshot} {r : DeliveryResult} {at' : Time} {todo : List Snapshot}
    (hph : (s'.delivery.workers w).phase = .posted x r at' todo) :
    (r.success || Json.storable (errorText r)) = true := by
  obtain hkeep | ⟨b, d, rfl, rfl, h⟩ := worker_of_step hs w
  · exact hinv.result w x r at' todo (hkeep ▸ hph)
  · cases h with
    | returned _ hr =>
      simp only [Delivery.setPhase_eq, Delivery.setWorker_workers, Function.update_self] at hph
      cases hph
      have hok : (deliver _).any _ = true := ha
      rwa [hr] at hok
    | resetStale _ => exact ha.elim
    | _ =>
      simp only [Delivery.setPhase_eq, Delivery.setWorker_workers, Function.update_self] at hph
      cases hph

/-- A row that is in flight after the step is in a batch. SOURCE: app/delivery/worker.py:58-174 -/
theorem inBatch_of_serves (hinv : Attended s) (ha : Serves a) (hdate : DatesRetries cfg s a)
    (hs : step cfg s a = some s') {row : DeliveryAttempt}
    (hrow : row ∈ s'.delivery.attempts) (hst : row.status = .inFlight) :
    InBatch s'.delivery row.id := by
  cases worldStep_of_eq_some hs with
  | @worker w b d h =>
    have hothers := fun w' (hw : w' ≠ w) => h.frame hw
    -- The batch stays as it is.
    have hsame : d.attempts = s.delivery.attempts →
        (d.workers w).phase.batch = (s.delivery.workers w).phase.batch →
        InBatch d row.id := fun hatt hbatch =>
      (hinv.row row (hatt ▸ hrow) hst).of_worker hothers fun hid => hbatch ▸ hid
    cases h with
    | claim hph _ _ _ _ _ =>
      refine (hinv.row row hrow hst).of_worker hothers fun hid => ?_
      rw [hph] at hid
      exact absurd hid List.not_mem_nil
    | claimCommit hph =>
      obtain ⟨hmem, _⟩ | ⟨r, _, hr, rfl⟩ := of_mem_updateWhere hrow
      · refine (hinv.row row hmem hst).of_worker hothers fun hid => ?_
        rw [hph] at hid
        simpa [WorkerPhase.batch] using hid
      · exact ⟨w, by simpa [WorkerPhase.batch] using hr⟩
    | fetch hph => exact hsame rfl (by simp [hph, WorkerPhase.batch])
    | close hph _ _ =>
      obtain ⟨hmem, hnot⟩ | ⟨r, _, _, rfl⟩ := of_mem_updateWhere hrow
      · refine (hinv.row row hmem hst).of_worker hothers fun hid => ?_
        rw [hph, WorkerPhase.batch, List.map_cons, List.mem_cons] at hid
        simpa [WorkerPhase.batch] using hid.resolve_left hnot
      · cases hst
    | post hph _ => exact hsame rfl (by simp [hph, WorkerPhase.batch])
    | returned hph _ => exact hsame rfl (by simp [hph, WorkerPhase.batch])
    | escaped _ hr =>
      have hok : (deliver _).any _ = true := ha
      rw [hr] at hok
      cases hok
    | writeBack hph _ hw =>
      obtain ⟨u, hu, rfl⟩ := writeBack_eq_some hw
      obtain ⟨hmem, hnot⟩ | ⟨r, _, _, rfl⟩ := of_mem_updateWhere hrow
      · refine (hinv.row row hmem hst).of_worker hothers fun hid => ?_
        rw [hph, WorkerPhase.batch, List.map_cons, List.mem_cons] at hid
        simpa [WorkerPhase.batch] using hid.resolve_left hnot
      · have hstatus : u.status = .inFlight := hst
        obtain h | h | h := (updateOk_of_finalUpdate hu).status
        · rw [h] at hstatus
          cases hstatus
        · rw [h.1] at hstatus
          cases hstatus
        · rw [h] at hstatus
          cases hstatus
    | writeBackRaised hph hw =>
      exact absurd hw (writeBack_ne_none hph hdate (hinv.result _ _ _ _ _ hph))
    | finish hph => exact hsame rfl (by simp [hph, WorkerPhase.batch])
    | dbError => exact ha.elim
    | resetStale _ => exact ha.elim
    | crash => exact ha.elim
  | _ => exact ha.elim

/-- A bystander leaves the deliveries alone. -/
theorem delivery_of_bystander (ha : isBystander a = true) (hnothing : ResetsNothing cfg s a)
    (hs : step cfg s a = some s') : s'.delivery = s.delivery := by
  cases worldStep_of_eq_some hs with
  | handler h =>
    cases h with
    | commit => cases ha
    | commitLost => cases ha
    | _ => rfl
  | worker h =>
    cases h with
    | @resetStale T _ =>
      have hkeep : resetStaleInFlight cfg T s.delivery.attempts = s.delivery.attempts :=
        updateWhere_of_forall_not fun row hrow => by simp [hnothing row hrow]
      simp only [hkeep]
    | _ => cases ha
  | retry _ => cases ha
  | _ => rfl

/-- New deliveries are pending, and a retry makes its row pending. -/
theorem attended_of_addsWork (hreach : Reachable (step cfg) World.init s) (hinv : Attended s)
    (ha : addsWork a = true) (hs : step cfg s a = some s') : Attended s' := by
  have hworkers : ∀ w, s'.delivery.workers w = s.delivery.workers w := by
    intro w
    obtain h | ⟨b, d, rfl, _⟩ := worker_of_step hs w
    · exact h
    · cases ha
  refine ⟨fun row hrow hst => ?_, fun w x r at' todo hph =>
    hinv.result w x r at' todo (hworkers w ▸ hph)⟩
  obtain ⟨old, hold, hstep⟩ | ⟨hnew, _⟩ := (attemptsStep_of_step hs).of_mem hrow
  · cases hstep with
    | same =>
      obtain ⟨w, hid⟩ := hinv.row row hold hst
      exact ⟨w, (hworkers w).symm ▸ hid⟩
    | retry hr _ _ =>
      rw [status_retryRow ((recordInv_of_reachable hreach).loaded _ _ hr)] at hst
      cases hst
    | _ => cases ha
  · rw [hnew.status] at hst
    cases hst

/-- One serving step leaves no unfinished row to nobody. SOURCE: app/delivery/worker.py:36-174 -/
theorem attended_step (hreach : Reachable (step cfg) World.init s) (hinv : Attended s)
    (ha : Serving cfg s a) (hs : step cfg s a = some s') : Attended s' := by
  obtain (⟨ha, hdate⟩ | ⟨ha, hnothing⟩) | ha := ha
  · exact ⟨fun row hrow hst => inBatch_of_serves hinv ha hdate hs hrow hst,
      fun w x r at' todo hph => result_of_serves hinv ha hs hph⟩
  · have hkeep := delivery_of_bystander ha hnothing hs
    exact ⟨fun row hrow hst => hkeep ▸ hinv.row row (hkeep ▸ hrow) hst,
      fun w x r at' todo hph => hinv.result w x r at' todo (hkeep ▸ hph)⟩
  · exact attended_of_addsWork hreach hinv ha hs

/-! ## The end -/

/-- A step of a batch that goes on serves. -/
theorem serves_of_proceeds {w : WorkerId} {b : WorkerAction} (h : Proceeds b) :
    Serves (.worker w b) := by
  obtain ⟨hok, hkind, _⟩ := h
  cases b with
  | resetStale _ => cases (hkind w).1
  | _ => exact hok

/-- A backoff that draws 0 has a date, where the delays are finite.
SOURCE: app/delivery/worker.py:146-151 -/
theorem datesRetries_of_proceeds (hcfg : FiniteDelays cfg)
    (hreach : Reachable (step cfg) World.init s) (hnow : s.now < datetimeEnd) {w : WorkerId}
    {b : WorkerAction} (h : Proceeds b) : DatesRetries cfg s (.worker w b) := by
  cases b with
  | writeBack k =>
    obtain rfl := h.2.2 k rfl
    show WorkerPhase.DatesRetry cfg 0 (s.delivery.workers w).phase
    cases hph : (s.delivery.workers w).phase with
    | posted x r at' todo =>
      have hat : at' ≤ s.now := (clockInv_of_reachable hreach).worker w at' (by rw [hph]; rfl)
      refine Or.inr ((Nat.lt_or_ge (x.attempt.attemptCount + 1)
        cfg.deliveryMaxAttempts).symm.imp_right fun hlt => ?_)
      exact hcfg.retryDated_zero hlt (hat.trans_lt hnow)
    | _ => trivial
  | _ => trivial

/-- The workers have nothing left to do, now and later: whatever time passes, no step of a batch
is possible in which nothing fails. -/
def Served (cfg : Settings) (s : World) : Prop :=
  ∀ t s₁ a, step cfg s (.tick t) = some s₁ → Serves a → DatesRetries cfg s₁ a →
    step cfg s₁ a = none

/-- When nothing is left to do every worker is idle. SOURCE: app/delivery/worker.py:58-98 -/
theorem Served.idle (hcfg : FiniteDelays cfg) (hreach : Reachable (step cfg) World.init s)
    (hnow : s.now < datetimeEnd) (h : Served cfg s) (w : WorkerId) :
    (s.delivery.workers w).phase = .idle := by
  by_contra hne
  obtain ⟨w', b, hb, hsome⟩ := exists_batchStep hreach hne
  have hnone : step cfg s (.worker w' b) = none := h 0 s _ rfl (serves_of_proceeds hb)
    (datesRetries_of_proceeds hcfg hreach hnow hb)
  rw [hnone] at hsome
  cases hsome

/-- Where all workers are idle, a row can be claimed from its due time on.
SOURCE: app/delivery/worker.py:63-81 -/
theorem exists_claim (hB : 0 < cfg.deliveryBatchSize)
    (hreach : Reachable (step cfg) World.init s)
    (hidle : ∀ w, (s.delivery.workers w).phase = .idle) {row : DeliveryAttempt}
    (hrow : row ∈ s.delivery.attempts) (hopen : Open row) {d : Time}
    (hdue : row.nextAttemptAt ≤ s.now + d) :
    (step cfg { s with now := s.now + d }
      (.worker 0 (.claim (s.now + d) [row.id]))).isSome = true := by
  obtain ⟨ik, _, _, hsnap⟩ := exists_snapshot hreach hrow
  have hfree : row.id ∉ s.delivery.locked := by
    intro hl
    obtain ⟨w, hw⟩ := mem_locked.1 hl
    obtain ⟨_, _, hph, _⟩ := ((lockInv_of_reachable hreach).lock_iff w _).1 hw
    rw [hidle w] at hph
    cases hph
  simp [step, worker, hidle 0, hfree, hsnap, claimable_of_open hopen hdue, Nat.succ_le_of_lt hB]

/-- Then every row is finished. -/
theorem Served.finished (hcfg : FiniteDelays cfg) (hB : 0 < cfg.deliveryBatchSize)
    (hreach : Reachable (step cfg) World.init s) (hnow : s.now < datetimeEnd)
    (hinv : Attended s) (h : Served cfg s) {row : DeliveryAttempt}
    (hrow : row ∈ s.delivery.attempts) : row.status = .delivered ∨ row.status = .dead := by
  have hidle := h.idle hcfg hreach hnow
  have hclaim : ¬ Open row := by
    intro hopen
    have hsome := exists_claim hB hreach hidle hrow hopen (Nat.le_add_left _ _)
    rw [h _ _ (.worker 0 (.claim _ _)) rfl trivial trivial] at hsome
    cases hsome
  cases hst : row.status with
  | pending => exact absurd (Or.inl hst) hclaim
  | failed => exact absurd (Or.inr hst) hclaim
  | inFlight =>
    obtain ⟨w, hid⟩ := hinv.row row hrow hst
    rw [hidle w] at hid
    exact absurd hid List.not_mem_nil
  | delivered => exact Or.inl rfl
  | dead => exact Or.inr rfl

/-! ## The start -/

/-- A stale reset that is late enough leaves no row in flight.
SOURCE: app/delivery/worker.py:36-55 -/
theorem attended_of_reset (hreach : Reachable (step cfg) World.init s)
    (hidle : ∀ w, (s.delivery.workers w).phase = .idle) {T : Time}
    (hT : s.now + cfg.deliveryStaleInFlight < T)
    (hattempts : s'.delivery.attempts = resetStaleInFlight cfg T s.delivery.attempts)
    (hworkers : s'.delivery.workers = s.delivery.workers) : Attended s' := by
  refine ⟨fun row hrow hst => ?_, fun w x r at' todo hph => ?_⟩
  · rw [hattempts] at hrow
    obtain ⟨hmem, hnot⟩ | ⟨_, _, _, rfl⟩ := of_mem_updateWhere hrow
    · have hold : row.updatedAt + cfg.deliveryStaleInFlight < T :=
        (Nat.add_le_add_right ((clockInv_of_reachable hreach).row row hmem).updatedAt _).trans_lt hT
      simp [staleInFlight, hst, hold] at hnot
    · cases hst
  · rw [hworkers, hidle w] at hph
    cases hph

/-- A reset changes the rows and no worker. SOURCE: app/delivery/worker.py:36-55 -/
theorem delivery_of_reset {w : WorkerId} {d T : Time}
    (h : run (step cfg) s [.tick d, .worker w (.resetStale T)] = some s') :
    s'.delivery.attempts = resetStaleInFlight cfg T s.delivery.attempts ∧
      s'.delivery.workers = s.delivery.workers := by
  obtain ⟨m, hm, hlast⟩ := run_cons_eq_some.1 h
  cases hm
  rw [run_singleton] at hlast
  simp only [step, worker] at hlast
  split at hlast
  · cases hlast
    exact ⟨rfl, rfl⟩
  · cases hlast

/-- After the reset no unfinished row is left to nobody, in the whole run.
SOURCE: app/delivery/worker.py:36-55 -/
theorem attended_of_run (h : Reachable (step cfg) World.init s)
    (hidle : ∀ w, (s.delivery.workers w).phase = .idle) {w : WorkerId} {d T : Time}
    (hT : s.now + cfg.deliveryStaleInFlight < T) {s₁ : World}
    (hreset : run (step cfg) s [.tick d, .worker w (.resetStale T)] = some s₁)
    {as : List Action} (hrun : run (step cfg) s₁ as = some s')
    (has : Meets (step cfg) (Serving cfg) s₁ as) : Attended s' := by
  obtain ⟨hattempts, hworkers⟩ := delivery_of_reset hreset
  have hreach₁ := h.trans ⟨_, hreset⟩
  exact ReachableIf.induct (attended_of_reset h hidle hT hattempts hworkers)
    (fun _ _ _ hm hinv ha hs => attended_step (hreach₁.trans hm.reachable) hinv ha hs)
    ⟨as, hrun, has⟩

/-- Where there is no row there is no work. -/
theorem rowWork_of_not_mem {d : Delivery} {id : Uuid}
    (h : id ∉ d.attempts.map DeliveryAttempt.id) : rowWork cfg d id = 0 := by
  refine Nat.le_zero.1 (rowWork_le fun row hl _ => absurd ?_ h)
  obtain ⟨hmem, rfl⟩ := of_lookup_eq_some hl
  exact List.mem_map_of_mem hmem

/-- The work that workers find when they start. -/
theorem work_le_of_idle {d : Delivery} (hidle : ∀ w, (d.workers w).phase = .idle) :
    ∃ D, Within (deliveryWork cfg) d D ∧
      ∑ i ∈ D, deliveryWork cfg d i ≤ 8 * (cfg.deliveryMaxAttempts + 1) * d.attempts.length := by
  refine ⟨(d.attempts.map DeliveryAttempt.id).toFinset.image Sum.inl, fun i hi => ?_, ?_⟩
  · cases i with
    | inl id => exact rowWork_of_not_mem (by simpa using hi)
    | inr w => rw [deliveryWork, hidle w, phaseWork]
  · have hrow : ∀ i ∈ (d.attempts.map DeliveryAttempt.id).toFinset.image
        (Sum.inl : Uuid → Uuid ⊕ WorkerId),
        deliveryWork cfg d i ≤ 8 * (cfg.deliveryMaxAttempts + 1) := by
      intro i hi
      obtain ⟨id, _, rfl⟩ := Finset.mem_image.1 hi
      refine rowWork_le fun row _ _ => ?_
      simp only [postsWork]
      omega
    have hcard : ((d.attempts.map DeliveryAttempt.id).toFinset.image
        (Sum.inl : Uuid → Uuid ⊕ WorkerId)).card ≤ d.attempts.length :=
      Finset.card_image_le.trans ((List.toFinset_card_le _).trans (List.length_map _).le)
    calc ∑ i ∈ (d.attempts.map DeliveryAttempt.id).toFinset.image Sum.inl, deliveryWork cfg d i
        ≤ _ • (8 * (cfg.deliveryMaxAttempts + 1)) := Finset.sum_le_card_nsmul _ _ _ hrow
      _ ≤ 8 * (cfg.deliveryMaxAttempts + 1) * d.attempts.length := by
        rw [Nat.nsmul_eq_mul, Nat.mul_comm]
        exact Nat.mul_le_mul_left _ hcard

/-- Finitely many workers have a batch. -/
theorem exists_busy (h : Reachable (step cfg) World.init s) :
    ∃ W : Finset WorkerId, ∀ w, w ∉ W → (s.delivery.workers w).phase = .idle := by
  refine h.induct (I := fun s => ∃ W : Finset WorkerId, ∀ w, w ∉ W →
    (s.delivery.workers w).phase = .idle) ⟨∅, fun _ _ => rfl⟩ ?_
  rintro m a m' _ ⟨W, hW⟩ hs
  by_cases ha : ∃ w b, a = .worker w b
  · obtain ⟨w, b, rfl⟩ := ha
    refine ⟨insert w W, fun w' hw' => ?_⟩
    obtain ⟨hne, hw'⟩ := not_or.1 fun h => hw' (Finset.mem_insert.2 h)
    obtain h | ⟨_, _, heq, _⟩ := worker_of_step hs w'
    · rw [h]
      exact hW w' hw'
    · cases heq
      exact absurd rfl hne
  · refine ⟨W, fun w hw => ?_⟩
    obtain h | ⟨b, _, rfl, _⟩ := worker_of_step hs w
    · rw [h]
      exact hW w hw
    · exact absurd ⟨w, b, rfl⟩ ha

/-- The work of a reachable state is in finitely many rows and workers. -/
theorem exists_work (h : Reachable (step cfg) World.init s) :
    ∃ D, Within (deliveryWork cfg) s.delivery D := by
  obtain ⟨W, hW⟩ := exists_busy h
  refine ⟨(s.delivery.attempts.map DeliveryAttempt.id).toFinset.disjSum W, fun i hi => ?_⟩
  cases i with
  | inl id => exact rowWork_of_not_mem (by simpa using hi)
  | inr w => rw [deliveryWork, hW w (by simpa using hi), phaseWork]

/-- The number of steps that the workers take. -/
def served (as : List Action) : ℕ := as.countP fun a => !isBystander a

/-- In a calm run the workers take no more steps than there was work.
SOURCE: app/delivery/worker.py:58-174 -/
theorem served_le (hreach : Reachable (step cfg) World.init s) {D : Finset (Uuid ⊕ WorkerId)}
    (hD : Within (deliveryWork cfg) s.delivery D) {as : List Action}
    (hrun : run (step cfg) s as = some s') (has : Meets (step cfg) (Calm cfg) s as) :
    served as ≤ ∑ i ∈ D, deliveryWork cfg s.delivery i := by
  refine countP_le_of_lowers (w := fun m : World => deliveryWork cfg m.delivery)
    (c := fun a => !isBystander a) (E := Calm cfg) (fun _ _ _ hm _ hs => hm.snoc hs) ?_ ?_
    hreach hD hrun has
  · intro m a m' hm ha hc hs
    exact lowersOn_of_serves hm (ha.resolve_right fun hby => by simp [hby.1] at hc).1 hs
  · intro m a m' _ ha hc hs
    obtain ⟨ha, _⟩ | ⟨hby, hnothing⟩ := ha
    · rw [isBystander_of_serves ha] at hc
      cases hc
    · rw [delivery_of_bystander hby hnothing hs]

/-- The steps while workers serve, as long as the clock stays before the year 10000. -/
def CalmInTime (cfg : Settings) (s : World) (a : Action) : Prop :=
  Calm cfg s a ∧ ∀ d, a = .tick d → s.now + d < datetimeEnd

/-- A state in which the workers can be kept serving. -/
structure InService (cfg : Settings) (s : World) : Prop where
  reachable : Reachable (step cfg) World.init s
  now : s.now < datetimeEnd
  attended : Attended s

/-- A calm step in time keeps the workers in service. -/
theorem InService.step (h : InService cfg s) (ha : CalmInTime cfg s a)
    (hs : step cfg s a = some s') : InService cfg s' := by
  refine ⟨h.reachable.snoc hs, ?_, attended_step h.reachable h.attended (Or.inl ha.1) hs⟩
  cases worldStep_of_eq_some hs with
  | tick => exact ha.2 _ rfl
  | _ => exact h.now

/-- Idle workers before rows that are all finished have nothing to do. -/
theorem served_of_finished (hidle : ∀ w, (s.delivery.workers w).phase = .idle)
    (hfinished : ∀ row ∈ s.delivery.attempts, row.status = .delivered ∨ row.status = .dead) :
    Served cfg s := by
  intro t s₁ a ht ha _
  cases ht
  by_contra hne
  obtain ⟨s', hs'⟩ := Option.ne_none_iff_exists'.1 hne
  have hbusy : ∀ {w : WorkerId} {p : WorkerPhase}, (s.delivery.workers w).phase = p →
      p ≠ .idle → False := fun hp hnot => hnot (hp ▸ hidle _)
  cases worldStep_of_eq_some hs' with
  | worker h =>
    cases h with
    | claim _ _ hnonempty _ _ hp =>
      obtain ⟨id, hid⟩ := List.exists_mem_of_ne_nil _ hnonempty
      obtain ⟨_, x, hx, hc⟩ := hp id hid
      have hopen := open_of_claimable hc
      obtain hst | hst := hfinished _ (of_snapshotOf hx).1
      · simp [Open, hst] at hopen
      · simp [Open, hst] at hopen
    | claimCommit hph => exact hbusy hph (by simp)
    | fetch hph => exact hbusy hph (by simp)
    | close hph _ _ => exact hbusy hph (by simp)
    | post hph _ => exact hbusy hph (by simp)
    | returned hph _ => exact hbusy hph (by simp)
    | escaped hph _ => exact hbusy hph (by simp)
    | writeBack hph _ _ => exact hbusy hph (by simp)
    | writeBackRaised hph _ => exact hbusy hph (by simp)
    | finish hph => exact hbusy hph (by simp)
    | dbError => exact ha.elim
    | resetStale _ => exact ha.elim
    | crash => exact ha.elim
  | _ => exact ha.elim

/-- Workers that still have something to do can go on before the year 10000: a batch at once, an
idle worker with the claim of a row when it is due. -/
theorem InService.exists_serving (hcfg : FiniteDelays cfg) (hB : 0 < cfg.deliveryBatchSize)
    (h : InService cfg s) (hmore : ¬ Served cfg s) :
    ∃ as s', run (Program.step cfg) s as = some s' ∧
      Meets (Program.step cfg) (CalmInTime cfg) s as ∧ 0 < served as := by
  by_cases hidle : ∀ w, (s.delivery.workers w).phase = .idle
  · have hopen : ∃ row ∈ s.delivery.attempts, Open row := by
      by_contra hnone
      refine hmore (served_of_finished hidle fun row hrow => ?_)
      cases hst : row.status with
      | pending => exact absurd ⟨row, hrow, Or.inl hst⟩ hnone
      | failed => exact absurd ⟨row, hrow, Or.inr hst⟩ hnone
      | inFlight =>
        obtain ⟨w, hid⟩ := h.attended.row row hrow hst
        rw [hidle w] at hid
        exact absurd hid List.not_mem_nil
      | delivered => exact Or.inl rfl
      | dead => exact Or.inr rfl
    obtain ⟨row, hrow, hopen⟩ := hopen
    have hdue : row.nextAttemptAt ≤ s.now + (row.nextAttemptAt - s.now) := le_add_tsub
    have hclock : s.now + (row.nextAttemptAt - s.now) < datetimeEnd := by
      obtain hle | hle := Nat.le_total row.nextAttemptAt s.now
      · rw [Nat.sub_eq_zero_of_le hle, Nat.add_zero]
        exact h.now
      · rw [Nat.add_sub_of_le hle]
        obtain hpast | hdate := ((clockInv_of_reachable h.reachable).row row hrow).inCalendar
        · exact hpast.trans_lt h.now
        · exact hdate
    obtain ⟨s', hs'⟩ :=
      Option.isSome_iff_exists.1 (exists_claim hB h.reachable hidle hrow hopen hdue)
    refine ⟨[.tick (row.nextAttemptAt - s.now), .worker 0 (.claim _ [row.id])], s',
      run_cons_eq_some.2 ⟨_, rfl, by rwa [run_singleton]⟩,
      ⟨⟨Or.inr ⟨rfl, trivial⟩, ?_⟩, fun m hm => ?_⟩, Nat.one_pos⟩
    · rintro d ⟨⟩
      exact hclock
    · cases hm
      exact ⟨⟨Or.inl ⟨trivial, trivial⟩, nofun⟩, fun _ _ => trivial⟩
  · obtain ⟨w, hne⟩ := not_forall.1 hidle
    obtain ⟨w', b, hb, hsome⟩ := exists_batchStep h.reachable hne
    obtain ⟨s', hs'⟩ := Option.isSome_iff_exists.1 hsome
    have hserves : Serves (.worker w' b) := serves_of_proceeds hb
    refine ⟨[.worker w' b], s', by rwa [run_singleton], ⟨⟨Or.inl ⟨hserves, ?_⟩, nofun⟩,
      fun _ _ => trivial⟩, ?_⟩
    · exact datesRetries_of_proceeds hcfg h.reachable h.now hb
    · simp [served, isBystander_of_serves hserves]

/-- So they can be brought to a state in which they have nothing left to do. -/
theorem InService.exists_served (hcfg : FiniteDelays cfg) (hB : 0 < cfg.deliveryBatchSize)
    (h : InService cfg s) :
    ∃ as s', run (Program.step cfg) s as = some s' ∧
      Meets (Program.step cfg) (Calm cfg) s as ∧ s'.now < datetimeEnd ∧ Served cfg s' := by
  obtain ⟨D, hD⟩ := exists_work h.reachable
  have hcalm : ∀ {as : List Action}, Meets (Program.step cfg) (CalmInTime cfg) s as →
      Meets (Program.step cfg) (Calm cfg) s as := fun hmeets => hmeets.mono fun _ _ ha => And.left ha
  obtain ⟨as, s', hrun, hmeets, hdone⟩ := exists_done (E := CalmInTime cfg)
    (fun m => InService cfg m → Served cfg m)
    (fun bs s'' hbs hmeets => served_le h.reachable hD hbs (hcalm hmeets))
    fun m hm => by
      obtain ⟨hin, hmore⟩ := Classical.not_imp.1 hm
      exact hin.exists_serving hcfg hB hmore
  have hin : InService cfg s' := ReachableIf.induct h
    (fun _ _ _ _ hinv ha hs => hinv.step ha hs) ⟨as, hrun, hmeets⟩
  exact ⟨as, s', hrun, hcalm hmeets, hin.now, hdone hin⟩

/-- Take any reachable state in which the workers are idle, and a stale reset that is late enough,
such as the one of a worker that starts. From there on let any number of workers serve, in any
order among themselves and with the other processes, while messages are accepted and deliveries
retried, and whatever the endpoints answer, as long as no worker dies, no exception escapes and no
batch takes longer than the threshold of the stale resets. Where the delays are finite, and as
long as the clock is before the year 10000, every delivery is delivered or dead whenever the
workers have nothing left to do, now and later, and such a state can be reached from every point
of the run. If no work is added at all, the workers take a bounded number of steps.
SOURCE: app/delivery/worker.py:36-201 -/
theorem deliveries_complete (cfg : Settings) (hcfg : FiniteDelays cfg)
    (hB : 0 < cfg.deliveryBatchSize) (s : World) (h : Reachable (step cfg) World.init s)
    (hidle : ∀ w, (s.delivery.workers w).phase = .idle) (w : WorkerId) (d T : Time)
    (hT : s.now + cfg.deliveryStaleInFlight < T) (s₁ : World)
    (hreset : run (step cfg) s [.tick d, .worker w (.resetStale T)] = some s₁)
    (as : List Action) (s' : World) (hrun : run (step cfg) s₁ as = some s')
    (has : Meets (step cfg) (Serving cfg) s₁ as) :
    (s'.now < datetimeEnd → Served cfg s' →
      ∀ row ∈ s'.delivery.attempts, row.status = .delivered ∨ row.status = .dead) ∧
      (s'.now < datetimeEnd → ∃ bs s'', run (step cfg) s' bs = some s'' ∧
        Meets (step cfg) (Calm cfg) s' bs ∧ s''.now < datetimeEnd ∧ Served cfg s'') ∧
      (Meets (step cfg) (Calm cfg) s₁ as →
        served as ≤ 8 * (cfg.deliveryMaxAttempts + 1) * s.delivery.attempts.length) := by
  have hreach₁ := h.trans ⟨_, hreset⟩
  have hreach' := hreach₁.trans ⟨_, hrun⟩
  obtain ⟨hattempts, hworkers⟩ := delivery_of_reset hreset
  have hattended := attended_of_run h hidle hT hreset hrun has
  refine ⟨fun hnow hserved row hrow => ?_, fun hnow => ?_, fun hcalm => ?_⟩
  · exact hserved.finished hcfg hB hreach' hnow hattended hrow
  · exact InService.exists_served hcfg hB ⟨hreach', hnow, hattended⟩
  · have hlen : s₁.delivery.attempts.length = s.delivery.attempts.length := by
      rw [hattempts, resetStaleInFlight, updateWhere, List.length_map]
    obtain ⟨D, hD, hbound⟩ := @work_le_of_idle cfg s₁.delivery fun w' => hworkers ▸ hidle w'
    exact (served_le hreach₁ hD hrun hcalm).trans (hlen ▸ hbound)

end

/-! ## A concrete history -/

/-- The worker that died is idle again. -/
theorem crashed_idle (w : WorkerId) : (crashed.delivery.workers w).phase = .idle :=
  match w with
  | 0 => rfl
  | _ + 1 => rfl

/-- Worker 1 starts after the crash of worker 0 and resets the row. -/
def resetAfterCrash : List Action := [.tick (minutes 11), .worker 1 (.resetStale (minutes 11))]

/-- Worker 1 gets a 500, worker 0 is back and gets a 200. -/
def twoWorkersServe : List Action :=
  claimBatch 1 (minutes 11) [⟨3⟩] ++ deliverNext 1 (.response 500 none) 0 ++
  [.worker 1 .finish, .worker 0 (.resetStale (minutes 11))] ++
  claimBatch 0 (minutes 11) [⟨3⟩] ++ deliverNext 0 (.response 200 none) 0 ++ [.worker 0 .finish]

theorem resetAfterCrash_enabled :
    (run (step .default) crashed resetAfterCrash).isSome = true := by decide

def afterReset : World := (run (step .default) crashed resetAfterCrash).get resetAfterCrash_enabled

theorem twoWorkersServe_enabled :
    (run (step .default) afterReset twoWorkersServe).isSome = true := by decide +kernel

def afterService : World :=
  (run (step .default) afterReset twoWorkersServe).get twoWorkersServe_enabled

/-- Two workers serve the row that the first one has left. -/
theorem deliveries_complete_twoWorkersServe :
    (Served .default afterService →
      ∀ row ∈ afterService.delivery.attempts, row.status = .delivered ∨ row.status = .dead) ∧
    (∃ bs s'', run (step .default) afterService bs = some s'' ∧
      Meets (step .default) (Calm .default) afterService bs ∧ s''.now < datetimeEnd ∧
      Served .default s'') ∧
    (Meets (step .default) (Calm .default) afterReset twoWorkersServe →
      served twoWorkersServe ≤ 88) := by
  obtain ⟨hfinished, hreachable, hbound⟩ := deliveries_complete .default finiteDelays_default
    (by decide) crashed (Reachable.of_run crashWhilePosting_enabled) crashed_idle 1 (minutes 11)
    (minutes 11) (by decide) afterReset (Option.some_get resetAfterCrash_enabled).symm
    twoWorkersServe afterService (Option.some_get twoWorkersServe_enabled).symm (by decide +kernel)
  have hnow : afterService.now < datetimeEnd := by decide +kernel
  exact ⟨hfinished hnow, hreachable hnow, hbound⟩

end EventPipeline.Analysis
