import JobMatrix.Plan
import JobMatrix.Proofs.CacheKey.Payload
import JobMatrix.Proofs.CacheKey.Reading
import JobMatrix.Proofs.Distinct

set_option autoImplicit false

/-!
Cache scopes are shared by the instances with the same platform and the same assignment, and by no
others. This holds between all jobs of a workflow: neither the readable key nor what the digest is
taken of has anything else of an instance in it.
-/

namespace JobMatrix

namespace CacheKey

open Json

/-- The key is that of the instance in the scope. -/
def Keyed (scope : Option Text) (p : Instance × CacheKey) : Prop :=
  ∃ platform, p.1.platform = .text platform ∧
    compose platform p.1.assignment scope = .ok p.2.value ∧
    p.2.payload = payloadOf platform p.1.assignment scope

def SameScope (i j : Instance) : Prop := i.platform = j.platform ∧ i.assignment = j.assignment

theorem partText_eq_ok {v : Value} {t : Text} : partText v = .ok t ↔ v = .text t := by
  cases v <;> simp [partText]

theorem resolve_eq_ok {i : Instance} {scope : Option Text} {template : Value} {env : Entries Text}
    {key : CacheKey} :
    resolve i scope template env = .ok key ↔
      ∃ platform bytes, i.platform = .text platform ∧
        renderTemplate i template env = .ok key.rendered ∧
        compose platform i.assignment scope = .ok key.value ∧
        key.payload = payloadOf platform i.assignment scope ∧
        Text.encodeUtf8 (stableText key.payload) = .ok bytes ∧
        key.digest = Digest.sha256 bytes := by
  simp only [resolve, bind_eq_ok, pure_eq_ok, partText_eq_ok, mapError_eq_ok]
  constructor
  · rintro ⟨rendered, hr, platform, hp, value, hv, bytes, hb, rfl⟩
    exact ⟨platform, bytes, hp, hr, hv, rfl, hb, rfl⟩
  · rintro ⟨platform, bytes, hp, hr, hv, payload, hb, digest⟩
    obtain ⟨value, _, rendered, _⟩ := key
    obtain rfl : _ = payloadOf platform i.assignment scope := payload
    obtain rfl : _ = Digest.sha256 bytes := digest
    exact ⟨rendered, hr, platform, hp, value, hv, bytes, hb, rfl⟩

theorem head?_scopeParts (scope : Option Text) : (scopeParts scope).head?.getD [] = scope.getD [] := by
  cases scope with
  | none => rfl
  | some s => cases s <;> rfl

theorem scopeParts_congr {scope scope' : Option Text} (same : scope.getD [] = scope'.getD []) :
    scopeParts scope = scopeParts scope' := by
  have parts (s : Option Text) : scopeParts s = if (s.getD []).isEmpty then [] else [s.getD []] := by
    cases s <;> rfl
  rw [parts, parts, same]

section

variable {scope scope' : Option Text} {p q : Instance × CacheKey}

/-- An empty scope is left out of a key, as one that is missing. -/
theorem Keyed.value_eq_iff (hp : Keyed scope p) (hq : Keyed scope' q) :
    p.2.value = q.2.value ↔ SameScope p.1 q.1 ∧ scope.getD [] = scope'.getD [] := by
  obtain ⟨platform, isPlatform, composed, -⟩ := hp
  obtain ⟨platform', isPlatform', composed', -⟩ := hq
  rw [SameScope, isPlatform, isPlatform', Value.text.injEq]
  constructor
  · intro same
    have read := read?_compose composed
    rw [same, read?_compose composed'] at read
    obtain ⟨scopes, platforms, assignments⟩ := Parts.mk.inj (Option.some.inj read)
    rw [← head?_scopeParts scope, ← head?_scopeParts scope', scopes]
    exact ⟨⟨platforms.symm, assignments.symm⟩, rfl⟩
  · rintro ⟨⟨rfl, assignments⟩, scopes⟩
    rw [assignments, compose, scopeParts_congr scopes, ← compose, composed'] at composed
    exact (Except.ok.inj composed).symm

/-- What the digest is taken of has the scope as it was given. -/
theorem Keyed.text_eq_iff (hp : Keyed scope p) (hq : Keyed scope' q) :
    stableText p.2.payload = stableText q.2.payload ↔ SameScope p.1 q.1 ∧ scope = scope' := by
  obtain ⟨platform, isPlatform, -, payload⟩ := hp
  obtain ⟨platform', isPlatform', -, payload'⟩ := hq
  rw [SameScope, isPlatform, isPlatform', payload, payload', stableText_payloadOf_inj,
    Value.text.injEq, and_assoc]

theorem Keyed.payload_eq_iff (hp : Keyed scope p) (hq : Keyed scope' q) :
    p.2.payload = q.2.payload ↔ SameScope p.1 q.1 ∧ scope = scope' := by
  constructor
  · intro same
    exact (hp.text_eq_iff hq).mp (congrArg stableText same)
  · rintro ⟨same, rfl⟩
    obtain ⟨platform, isPlatform, -, payload⟩ := hp
    obtain ⟨platform', isPlatform', -, payload'⟩ := hq
    rw [SameScope, isPlatform, isPlatform', Value.text.injEq] at same
    rw [payload, payload', same.1, same.2]

end

theorem keyed_of_resolve {i : Instance} {scope : Option Text} {template : Value}
    {env : Entries Text} {key : CacheKey} (resolved : resolve i scope template env = .ok key) :
    Keyed scope (i, key) := by
  obtain ⟨platform, -, isPlatform, -, composed, payload, -⟩ := resolve_eq_ok.mp resolved
  exact ⟨platform, isPlatform, composed, payload⟩

end CacheKey

open CacheKey

/-- The instances of a job with their keys: one key for each choice among the different values. -/
structure Job.SharesScopes (j : Job) (keys : List (Instance × CacheKey)) : Prop where
  instances : keys.map Prod.fst = j.instances
  distinct : (keys.map fun p => p.2.value).toFinset.card =
    (j.axes.map fun a => a.values.toFinset.card).prod
  nodup_iff : (keys.map fun p => p.2.value).Nodup ↔ ∀ a ∈ j.axes, a.values.Nodup

namespace Job

theorem cacheKeys_eq_ok {j : Job} {scope : Option Text} {keys : List (Instance × CacheKey)} :
    j.cacheKeys scope = .ok keys ↔
      List.Forall₂ (fun i p => p.1 = i ∧
        resolve i scope ((j.cache.map CacheSpec.key).getD .null) j.env = .ok p.2)
        j.instances keys :=
  mapM_pair_eq_ok

theorem instances_of_cacheKeys {j : Job} {scope : Option Text}
    {keys : List (Instance × CacheKey)} (h : j.cacheKeys scope = .ok keys) :
    keys.map Prod.fst = j.instances := by
  have same := map_eq_map_of_forall₂ (cacheKeys_eq_ok.mp h) fun i p here => here.1.symm
  rw [← same, List.map_id']

theorem keyed_of_cacheKeys {j : Job} {scope : Option Text}
    {keys : List (Instance × CacheKey)} (h : j.cacheKeys scope = .ok keys) :
    ∀ p ∈ keys, Keyed scope p := by
  intro p member
  obtain ⟨i, -, rfl, resolved⟩ := exists_mem_left_of_forall₂ (cacheKeys_eq_ok.mp h) member
  exact keyed_of_resolve resolved

/-- Between instances of one job the values alone make the difference. -/
theorem value_eq_iff_assignment_eq {j : Job} {scope : Option Text}
    {keys : List (Instance × CacheKey)} (h : j.cacheKeys scope = .ok keys) :
    ∀ p ∈ keys, ∀ q ∈ keys, p.2.value = q.2.value ↔ p.1.assignment = q.1.assignment := by
  intro p hp q hq
  -- The platform is that of the job for both.
  have ofJob (r : Instance × CacheKey) (hr : r ∈ keys) : r.1.platform = j.platform := by
    apply platform_of_mem_instances
    rw [← instances_of_cacheKeys h]
    exact List.mem_map_of_mem hr
  rw [(keyed_of_cacheKeys h p hp).value_eq_iff (keyed_of_cacheKeys h q hq), SameScope,
    ofJob p hp, ofJob q hq]
  simp

theorem sharesScopes_of_cacheKeys {j : Job} (made : j.Constructed) {scope : Option Text}
    {keys : List (Instance × CacheKey)} (h : j.cacheKeys scope = .ok keys) :
    j.SharesScopes keys := by
  have assignments : (keys.map fun p => p.1.assignment) = combinations j.axes := by
    rw [← assignments_instances, ← instances_of_cacheKeys h, List.map_map]
    rfl
  have distinct : (keys.map fun p => p.2.value).toFinset.card =
      (combinations j.axes).toFinset.card := by
    rw [← assignments]
    exact card_map_eq_of_iff (value_eq_iff_assignment_eq h)
  have size : (keys.map fun p => p.2.value).length = (combinations j.axes).length := by
    rw [← assignments, List.length_map, List.length_map]
  refine ⟨instances_of_cacheKeys h, ?_, ?_⟩
  · rw [distinct, card_combinations]
  · rw [← card_eq_length_iff, distinct, size, card_eq_length_iff]
    exact nodup_combinations_iff made.wellFormed.axes.inhabited

theorem planInstance_eq_ok {j : Job} {i : Instance} {key : CacheKey} {p : PlannedInstance}
    (h : j.planInstance i key = .ok p) : p.inst = i ∧ p.key = key := by
  simp only [planInstance, bind_eq_ok, pure_eq_ok] at h
  obtain ⟨_, _, _, _, rfl⟩ := h
  exact ⟨rfl, rfl⟩

theorem cacheKeys_of_plan {j : Job} {scope : Option Text} {planned : List PlannedInstance}
    (h : j.plan scope = .ok planned) :
    j.cacheKeys scope = .ok (planned.map fun p => (p.inst, p.key)) := by
  simp only [plan, bind_eq_ok, mapM_eq_ok] at h
  obtain ⟨keys, found, each⟩ := h
  rw [found]
  refine congrArg Except.ok ?_
  clear found
  induction each with
  | nil => rfl
  | cons first _ ih =>
    obtain ⟨inst, key⟩ := planInstance_eq_ok first
    rw [List.map_cons, inst, key, ih]

end Job

def Plan.cacheKeys (p : Plan) : Entries (List (Instance × CacheKey)) :=
  p.jobs.map fun e => (e.1, e.2.map fun planned => (planned.inst, planned.key))

/-- Scopes are told apart by platform and assignment, between the jobs and within each of them. -/
structure SeparatesScopes (jobs : List Job) (entries : Entries (List (Instance × CacheKey))) :
    Prop where
  value_eq_iff : ∀ p ∈ entries.flatMap Prod.snd, ∀ q ∈ entries.flatMap Prod.snd,
    p.2.value = q.2.value ↔ SameScope p.1 q.1
  payload_eq_iff : ∀ p ∈ entries.flatMap Prod.snd, ∀ q ∈ entries.flatMap Prod.snd,
    p.2.payload = q.2.payload ↔ SameScope p.1 q.1
  text_eq_iff : ∀ p ∈ entries.flatMap Prod.snd, ∀ q ∈ entries.flatMap Prod.snd,
    stableText p.2.payload = stableText q.2.payload ↔ SameScope p.1 q.1
  jobs : List.Forall₂ (fun (j : Job) e => e.1 = j.name ∧ j.SharesScopes e.2) jobs entries

namespace Workflow

theorem cacheKeys_eq_ok {w : Workflow} {scope : Option Text}
    {entries : Entries (List (Instance × CacheKey))} :
    w.cacheKeys scope = .ok entries ↔
      List.Forall₂ (fun j e => e.1 = j.name ∧ j.cacheKeys scope = .ok e.2) w.jobs entries :=
  mapM_pair_eq_ok

theorem keyed_of_cacheKeys {w : Workflow} {scope : Option Text}
    {entries : Entries (List (Instance × CacheKey))} (h : w.cacheKeys scope = .ok entries) :
    ∀ p ∈ entries.flatMap Prod.snd, Keyed scope p := by
  intro p member
  obtain ⟨e, he, hp⟩ := List.mem_flatMap.mp member
  obtain ⟨j, -, -, resolved⟩ := exists_mem_left_of_forall₂ (cacheKeys_eq_ok.mp h) he
  exact j.keyed_of_cacheKeys resolved p hp

theorem separatesScopes_of_cacheKeys {w : Workflow} (made : w.Constructed)
    {scope : Option Text} {entries : Entries (List (Instance × CacheKey))}
    (h : w.cacheKeys scope = .ok entries) : SeparatesScopes w.jobs entries := by
  have keyed := keyed_of_cacheKeys h
  refine ⟨fun p hp q hq => ((keyed p hp).value_eq_iff (keyed q hq)).trans (and_iff_left rfl),
    fun p hp q hq => ((keyed p hp).payload_eq_iff (keyed q hq)).trans (and_iff_left rfl),
    fun p hp q hq => ((keyed p hp).text_eq_iff (keyed q hq)).trans (and_iff_left rfl), ?_⟩
  have each := (List.forall₂_and_left _ _).mpr ⟨made.jobs, cacheKeys_eq_ok.mp h⟩
  refine each.imp ?_
  rintro j e ⟨job, name, resolved⟩
  exact ⟨name, j.sharesScopes_of_cacheKeys job resolved⟩

/-- A plan has the keys of the workflow, in the scope of the settings when it is given none. -/
theorem cacheKeys_of_plan {settings : Settings} {w : Workflow} {scope : Option Text}
    {plan : Plan} (h : w.plan settings scope = .ok plan) :
    w.cacheKeys (scope.or settings.cacheScope) = .ok plan.cacheKeys := by
  simp only [Workflow.plan, bind_eq_ok, pure_eq_ok] at h
  obtain ⟨jobs, planned, triggers, -, rfl⟩ := h
  rw [cacheKeys_eq_ok, Plan.cacheKeys, List.forall₂_map_right_iff]
  refine (mapM_pair_eq_ok.mp planned).imp ?_
  rintro j e ⟨name, found⟩
  exact ⟨name, j.cacheKeys_of_plan found⟩

/-- Cache scopes are separated and shared as platforms and assignments are. -/
theorem scopes_separated (settings : Settings) (w : Workflow) (scope : Option Text)
    (made : w.Constructed) :
    (∀ entries, w.cacheKeys scope = .ok entries → SeparatesScopes w.jobs entries) ∧
      ∀ plan, w.plan settings scope = .ok plan → SeparatesScopes w.jobs plan.cacheKeys :=
  ⟨fun _ h => separatesScopes_of_cacheKeys made h,
    fun _ h => separatesScopes_of_cacheKeys made (cacheKeys_of_plan h)⟩

/-- Two jobs that differ by their names. -/
def twins : Workflow where
  name := .text ("ci" : String)
  jobs := [Job.twoAxes, { Job.twoAxes with name := "test" }]
  platforms := Platform.defaults

theorem twins_constructed : twins.Constructed := by
  refine ⟨{}, twins.name, twins.jobs, .map [], [], ?_, rfl⟩
  intro j member
  rcases List.mem_cons.mp member with rfl | second
  · exact Job.twoAxes_constructed
  · obtain rfl := List.mem_singleton.mp second
    exact ⟨.text ("test" : String), Job.twoAxes.platform, Job.twoAxes.steps,
      some (.ofAxes Job.twoAxes.axes), [], .bool true, none, rfl⟩

theorem twins_scopes_separated :
    twins.Constructed ∧
      (∃ entries, twins.cacheKeys none = .ok entries ∧ SeparatesScopes twins.jobs entries) ∧
      ∃ plan, twins.plan {} none = .ok plan ∧ SeparatesScopes twins.jobs plan.cacheKeys := by
  obtain ⟨keys, plans⟩ := scopes_separated {} twins none twins_constructed
  exact ⟨twins_constructed, ⟨_, rfl, keys _ rfl⟩, _, rfl, plans _ rfl⟩

end Workflow

end JobMatrix
