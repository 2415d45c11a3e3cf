import EventPipeline.Interface.SystemSteps
import EventPipeline.Program.EnrichRetry

/-!
# What a step with calls of the provider can do

`ProviderStep` lists the steps, and `run_pipelineActions` is the link to the pipeline that takes a
whole loop as one step: what the pipeline sees of a run with calls of the provider is a run of its
own.
-/

set_option autoImplicit false

namespace EventPipeline.Interface

open EventPipeline.Model EventPipeline.Program EventPipeline.Computation

/-- The enabled steps. SOURCE: app/consumer/rabbitmq.py:96-103,149-185 -/
inductive ProviderStep (cfg : Settings) (s : ProviderWorld) : ProviderAction → ProviderWorld → Prop
  | other {a : Action} {w : World} (hne : ∀ t o, a ≠ .handler t (.enrich o))
      (hs : step cfg s.world a = some w) :
      ProviderStep cfg s (.other a) { leaveLoop s a with world := w }
  | noProvider {t : Tag} {resumesAt : Time} {w : World} (hl : s.loops t = .waiting 0 resumesAt)
      (hs : step cfg s.world (.handler t (.enrich .other)) = some w) :
      ProviderStep cfg s (.noProvider t) { s.setLoop t .start with world := w }
  | begins {t : Tag} {ev : NewEvent} {loop : LoopState EnrichOutcome}
      (hh : s.world.intake.handlers t = .enriching ev)
      (hn : enrichWithRetry.next (s.loops t) (.begins s.world.now) = some loop) :
      ProviderStep cfg s (.begins t) (s.setLoop t loop)
  | again {t : Tag} {ev : NewEvent} {o : EnrichOutcome} {loop : LoopState EnrichOutcome}
      (hh : s.world.intake.handlers t = .enriching ev)
      (hn : enrichWithRetry.next (s.loops t) (.ends s.world.now o) = some loop)
      (hloop : ∀ o', loop ≠ .done o') : ProviderStep cfg s (.ends t o) (s.setLoop t loop)
  | ends {t : Tag} {ev : NewEvent} {o o' : EnrichOutcome} {w : World}
      (hh : s.world.intake.handlers t = .enriching ev)
      (hn : enrichWithRetry.next (s.loops t) (.ends s.world.now o) = some (.done o'))
      (hs : step cfg s.world (.handler t (.enrich o')) = some w) :
      ProviderStep cfg s (.ends t o) { s.setLoop t .start with world := w }

section
variable {cfg : Settings} {s s' : ProviderWorld} {a : ProviderAction}

/-- The list of steps is complete. -/
theorem providerStep_of_eq_some (h : providerStep cfg s a = some s') : ProviderStep cfg s a s' := by
  cases a with
  | other a =>
    simp only [providerStep] at h
    split at h
    · cases h
    · rename_i hne
      obtain ⟨w, hs, rfl⟩ := Option.map_eq_some_iff.1 h
      exact .other (fun t o heq => hne t o heq) hs
  | noProvider t =>
    simp only [providerStep] at h
    split at h
    · obtain ⟨w, hs, rfl⟩ := Option.map_eq_some_iff.1 h
      exact .noProvider ‹_› hs
    · cases h
  | begins t =>
    simp only [providerStep] at h
    split at h
    · obtain ⟨loop, hn, rfl⟩ := Option.map_eq_some_iff.1 h
      exact .begins ‹_› hn
    · cases h
  | ends t o =>
    simp only [providerStep] at h
    split at h
    · obtain ⟨w, hs, rfl⟩ := Option.map_eq_some_iff.1 h
      exact .ends ‹_› ‹_› hs
    · rename_i hloop hh hn
      cases h
      exact .again hh hn fun o' heq => hloop o' heq
    · cases h

/-- One step is no step of the pipeline or one step of it. -/
theorem run_pipelineAction (h : providerStep cfg s a = some s') :
    run (step cfg) s.world (pipelineAction s a) = some s'.world := by
  cases providerStep_of_eq_some h with
  | other _ hs => exact run_singleton.trans hs
  | noProvider _ hs => exact run_singleton.trans hs
  | begins _ _ => rfl
  | again _ hn hloop =>
    simp only [pipelineAction, hn]
    split
    · rename_i heq
      cases heq
      exact absurd rfl (hloop _)
    · rfl
  | ends _ hn hs =>
    simp only [pipelineAction, hn]
    exact run_singleton.trans hs

/-- The pipeline with the calls of the provider refines the one that takes a loop as one step. -/
theorem run_pipelineActions {as : List ProviderAction}
    (h : run (providerStep cfg) ProviderWorld.init as = some s) :
    run (step cfg) World.init (pipelineActions cfg as) = some s.world := by
  refine run_induct
    (I := fun as s => run (step cfg) World.init (pipelineActions cfg as) = some s.world) rfl ?_ h
  intro as s a s' hrun ih hs
  rw [pipelineActions, history_snoc hrun]
  exact run_append_eq_some.2 ⟨s.world, ih, run_pipelineAction hs⟩

end

end EventPipeline.Interface
