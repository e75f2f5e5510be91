import JobMatrix.Command.Report
import JobMatrix.Proofs.CacheKey.Scopes
import JobMatrix.Proofs.Json.Members

set_option autoImplicit false

/-!
The keys that the program reports. Asked for the keys of a workflow and asked for its plan, the
program takes the scope from the same place, and what it prints shows the same keys: those of the
workflow, job by job and instance by instance.
-/

namespace JobMatrix

open CacheKey

/-- An entry of the answer about keys shows an instance with its key. -/
structure ShowsKey (p : Instance × CacheKey) (j : Json) : Prop where
  label : j.at? ["label"] = some (.string p.1.label)
  value : j.at? ["key"] = some (.string p.2.value)
  digest : j.at? ["digest"] = some (.string p.2.digest)
  rendered : j.at? ["rendered_key"] = some ((p.2.rendered.map Json.string).getD .null)

/-- An entry of a plan shows an instance with its key. It has no member for a key that the job does
not declare. -/
structure ShowsPlanned (p : Instance × CacheKey) (j : Json) : Prop where
  label : j.at? ["label"] = some (.string p.1.label)
  value : j.at? ["cache", "key"] = some (.string p.2.value)
  digest : j.at? ["cache", "digest"] = some (.string p.2.digest)
  rendered : j.at? ["cache", "rendered_key"] = p.2.rendered.map Json.string

/-- The members of a JSON object are the jobs, each with a list of its instances. -/
def ShowsJobs (Shows : Instance × CacheKey → Json → Prop)
    (entries : Entries (List (Instance × CacheKey))) (j : Json) : Prop :=
  ∃ members, j = .object members ∧ List.Forall₂ (fun e m => m.1 = e.1 ∧
    ∃ items, m.2 = .array items ∧ List.Forall₂ Shows e.2 items) entries members

/-- What the program prints on its output is the text of a JSON document. -/
def Report.Prints (r : Report) (j : Json) : Prop := r.output.out = j.indented 0 ++ [.char '\n']

/-! ### Texts on the output -/

@[simp] theorem Output.out_append (a b : Output) : (a ++ b).out = a.out ++ b.out := rfl

@[simp] theorem Console.out_remark (c : Console) (message : Text) : (c.remark message).out = [] := by
  unfold Console.remark
  split <;> rfl

@[simp] theorem Console.out_note (c : Console) (part : String) (message : Text) :
    (c.note part message).out = [] := by
  unfold Console.note
  split <;> rfl

namespace Request

@[simp] theorem out_loadNote (c : Console) (t : FileTree) (path : Path) (w : Workflow) :
    (loadNote c t path w).out = [] := by
  unfold loadNote
  split <;> simp

@[simp] theorem out_expansionNote (c : Console) (j : Job) : (expansionNote c j).out = [] := by
  unfold expansionNote
  split <;> simp

@[simp] theorem out_keysNote (c : Console) (j : Job) : (keysNote c j).out = [] := by
  simp [keysNote]

@[simp] theorem out_allKeysNotes (c : Console) (scope : Option Text) (jobs : List Job) :
    (allKeysNotes c scope jobs).out = [] := by
  induction jobs with
  | nil => rfl
  | cons j jobs ih =>
    unfold allKeysNotes
    split <;> simp [ih]

@[simp] theorem out_allPlanNotes (c : Console) (scope : Option Text) (jobs : List Job) :
    (allPlanNotes c scope jobs).out = [] := by
  induction jobs with
  | nil => rfl
  | cons j jobs ih =>
    unfold allPlanNotes
    split <;> simp [ih]

@[simp] theorem out_planNote (c : Console) (p : Plan) : (planNote c p).out = [] := by
  simp [planNote]

@[simp] theorem out_printed (j : Json) : (printed j).out = j.indented 0 ++ [.char '\n'] := by
  simp [printed, Output.lines]

/-! ### Loading -/

/-- The file that a request is about gives the workflow. -/
def Finds (r : Request) (settings : Settings) (t : FileTree) (l : Loaded) : Prop :=
  discover settings t r.workflow = .ok (.ok l.path) ∧
    load settings t l.path r.platforms = .ok l.workflow

theorem Finds.unique {r s : Request} {settings : Settings} {t : FileTree} {l m : Loaded}
    (workflow : r.workflow = s.workflow) (platforms : r.platforms = s.platforms)
    (hl : r.Finds settings t l) (hm : s.Finds settings t m) : l = m := by
  obtain ⟨path, w⟩ := l
  obtain ⟨path', w'⟩ := m
  obtain ⟨found, loaded⟩ := hl
  obtain ⟨found', loaded'⟩ := hm
  rw [workflow] at found
  rw [platforms] at loaded
  obtain rfl : path' = path := Except.ok.inj (Except.ok.inj (found'.symm.trans found))
  obtain rfl : w' = w := Except.ok.inj (loaded'.symm.trans loaded)
  rfl

theorem loaded_eq_ok {r : Request} {settings : Settings} {t : FileTree} {printed : Output}
    {l : Loaded} (h : r.loaded settings t = (printed, .ok l)) :
    printed.out = [] ∧ r.Finds settings t l := by
  unfold loaded at h
  split at h
  next => simp at h
  next => simp at h
  next path found =>
    split at h
    next w result =>
      obtain ⟨rfl, loaded⟩ := Prod.mk.inj h
      obtain rfl := Except.ok.inj loaded
      exact ⟨by simp, found, result⟩
    next => simp at h

theorem ending_of_loaded_eq_error {r : Request} {settings : Settings} {t : FileTree}
    {printed : Output} {ending : Ending} (h : r.loaded settings t = (printed, .error ending)) :
    ending ≠ .status 0 := by
  unfold loaded at h
  split at h
  next =>
    obtain rfl := Except.error.inj (Prod.mk.inj h).2
    simp
  next =>
    obtain rfl := Except.error.inj (Prod.mk.inj h).2
    simp
  next =>
    split at h
    next => simp at h
    next =>
      obtain rfl := Except.error.inj (Prod.mk.inj h).2
      simp

/-! ### Both answers -/

theorem showsKey_keyJson (p : Instance × CacheKey) : ShowsKey p (keyJson p) := by
  refine ⟨rfl, rfl, rfl, ?_⟩
  cases rendered : p.2.rendered <;> simp [keyJson, rendered] <;> rfl

theorem showsJobs_keyJson (entries : Entries (List (Instance × CacheKey))) :
    ShowsJobs ShowsKey entries
      (.object (entries.map fun e => (e.1, .array (e.2.map keyJson)))) := by
  refine ⟨_, rfl, List.forall₂_map_right_iff.mpr (List.forall₂_same.mpr fun e _ => ?_)⟩
  refine ⟨rfl, _, rfl, List.forall₂_map_right_iff.mpr (List.forall₂_same.mpr fun p _ => ?_)⟩
  exact showsKey_keyJson p

end Request

theorem PlannedInstance.showsPlanned {p : PlannedInstance} {j : Json}
    (made : p.toValue.toJson = .ok j) : ShowsPlanned (p.inst, p.key) j := by
  have label : j.member? "label" = some (.string p.inst.label) :=
    Value.member?_record_text made rfl
  obtain ⟨cache, found, form⟩ := Value.exists_member?_record made "cache" rfl
  have inCache (name : Text) : j.at? ["cache", name] = cache.member? name := by
    change (j.member? "cache").bind _ = _
    rw [found]
    change (cache.member? name).bind some = _
    exact Option.bind_fun_some _
  refine ⟨?_, ?_, ?_, ?_⟩
  · change (j.member? "label").bind some = _
    rw [label]
    rfl
  · rw [inCache]
    exact Value.member?_record_text form rfl
  · rw [inCache]
    exact Value.member?_record_text form rfl
  · rw [inCache]
    cases rendered : p.key.rendered with
    | none =>
      rw [rendered] at form
      exact Value.member?_record_eq_none form rfl
    | some s =>
      rw [rendered] at form
      exact Value.member?_record_text form rfl

theorem Plan.showsJobs {p : Plan} {j : Json} (made : p.toJson = .ok j) :
    ∃ jobs, j.member? "jobs" = some jobs ∧ ShowsJobs ShowsPlanned p.cacheKeys jobs := by
  obtain ⟨jobs, found, form⟩ := Value.exists_member?_record made "jobs" rfl
  obtain ⟨members, rfl, each⟩ := Value.toJson_record_eq_ok.mp form
  refine ⟨_, found, members, rfl, ?_⟩
  rw [Plan.cacheKeys, List.forall₂_map_left_iff]
  rw [List.forall₂_map_left_iff] at each
  refine each.imp ?_
  rintro e m ⟨name, listed⟩
  obtain ⟨items, array, shown⟩ := Value.toJson_list_eq_ok.mp listed
  refine ⟨name, items, array, ?_⟩
  rw [List.forall₂_map_left_iff] at shown ⊢
  exact shown.imp fun _ _ form => PlannedInstance.showsPlanned form

namespace Request

theorem loaded_of_run {r : Request} {settings : Settings} {t : FileTree}
    (done : (r.run settings t).ending = .status 0) :
    ∃ printed l, r.loaded settings t = (printed, .ok l) ∧ printed.out = [] ∧
      r.Finds settings t l := by
  cases loading : r.loaded settings t with
  | mk printed result =>
    cases result with
    | error ending =>
      simp only [run, loading] at done
      exact absurd done (ending_of_loaded_eq_error loading)
    | ok l =>
      obtain ⟨silent, finds⟩ := loaded_eq_ok loading
      exact ⟨printed, l, rfl, silent, finds⟩

/-- Keys that are asked for in JSON are printed as they are. -/
theorem run_keys {r : Request} {settings : Settings} {t : FileTree} (action : r.action = .keys)
    (json : r.json = true) (done : (r.run settings t).ending = .status 0) :
    ∃ l entries j, r.Finds settings t l ∧
      l.workflow.cacheKeys (r.scopeIn settings) = .ok entries ∧
      (r.run settings t).Prints j ∧ ShowsJobs ShowsKey entries j := by
  obtain ⟨printed, l, loading, silent, finds⟩ := loaded_of_run done
  simp only [run, loading, action, runKeys] at done
  cases resolved : l.workflow.cacheKeys (r.scopeIn settings) with
  | error f => simp [resolved] at done
  | ok entries =>
    refine ⟨l, entries, _, finds, resolved, ?_, showsJobs_keyJson entries⟩
    simp [Report.Prints, run, loading, action, runKeys, resolved, json, silent]

/-- A plan that is asked for in JSON is printed as it is, with the keys of the workflow. -/
theorem run_plan {r : Request} {settings : Settings} {t : FileTree} (action : r.action = .plan)
    (json : r.json = true) (nowhere : r.output = none)
    (done : (r.run settings t).ending = .status 0) :
    ∃ l entries j jobs, r.Finds settings t l ∧
      l.workflow.cacheKeys (r.scopeIn settings) = .ok entries ∧
      (r.run settings t).Prints j ∧ j.member? "jobs" = some jobs ∧
      ShowsJobs ShowsPlanned entries jobs := by
  obtain ⟨printed, l, loading, silent, finds⟩ := loaded_of_run done
  simp only [run, loading, action, runPlan] at done
  cases planned : l.workflow.plan settings r.scope with
  | error f => simp [planned] at done
  | ok plan =>
    cases form : plan.toJson with
    | error fault => simp [planned, nowhere, json, form] at done
    | ok j =>
      obtain ⟨jobs, found, shown⟩ := plan.showsJobs form
      refine ⟨l, plan.cacheKeys, j, jobs, finds, Workflow.cacheKeys_of_plan planned, ?_, found,
        shown⟩
      simp [Report.Prints, run, loading, action, runPlan, planned, nowhere, json, form, silent]

/-- One request is about the keys and the other about the plan of the same workflow in the same
scope, and both are to be answered in JSON. -/
structure Alike (k p : Request) : Prop where
  keys : k.action = .keys
  plan : p.action = .plan
  keysJson : k.json = true
  planJson : p.json = true
  printed : p.output = none
  workflow : k.workflow = p.workflow
  platforms : k.platforms = p.platforms
  scope : k.scope = p.scope

end Request

theorem Workflow.names_of_cacheKeys {w : Workflow} {scope : Option Text}
    {entries : Entries (List (Instance × CacheKey))} (h : w.cacheKeys scope = .ok entries) :
    entries.map Prod.fst = w.jobs.map Job.name :=
  (map_eq_map_of_forall₂ (cacheKeys_eq_ok.mp h) fun _ _ found => found.1.symm).symm

theorem Workflow.digest_of_cacheKeys {w : Workflow} {scope : Option Text}
    {entries : Entries (List (Instance × CacheKey))} (h : w.cacheKeys scope = .ok entries) :
    ∀ p ∈ entries.flatMap Prod.snd, ∃ bytes,
      Text.encodeUtf8 (stableText p.2.payload) = .ok bytes ∧ p.2.digest = Digest.sha256 bytes := by
  intro p member
  obtain ⟨e, he, hp⟩ := List.mem_flatMap.mp member
  obtain ⟨j, -, -, resolved⟩ := exists_mem_left_of_forall₂ (cacheKeys_eq_ok.mp h) he
  obtain ⟨i, -, -, key⟩ := exists_mem_left_of_forall₂ (Job.cacheKeys_eq_ok.mp resolved) hp
  obtain ⟨_, bytes, -, -, -, -, encoded, digest⟩ := resolve_eq_ok.mp key
  exact ⟨bytes, encoded, digest⟩

/-- When a command line that asks for keys and one that asks for the plan both succeed, what they
print shows the keys of one workflow, in the order of its jobs and of their instances. -/
theorem Report.keys_agree_with_plan (settings : Settings) (t : FileTree)
    (keysLine planLine : List Text) (k p : Request)
    (readKeys : Request.read t.namesFolder keysLine = .ok k)
    (readPlan : Request.read t.namesFolder planLine = .ok p) (alike : Request.Alike k p)
    (keysDone : (Report.ofCommandLine settings t keysLine).ending = .status 0)
    (planDone : (Report.ofCommandLine settings t planLine).ending = .status 0) :
    ∃ l entries keys plan jobs, k.Finds settings t l ∧ p.Finds settings t l ∧
      l.workflow.cacheKeys (k.scope.or settings.cacheScope) = .ok entries ∧
      entries.map Prod.fst = l.workflow.jobs.map Job.name ∧
      (∀ e ∈ entries.flatMap Prod.snd, ∃ bytes,
        Text.encodeUtf8 (stableText e.2.payload) = .ok bytes ∧
          e.2.digest = Digest.sha256 bytes) ∧
      (Report.ofCommandLine settings t keysLine).Prints keys ∧ ShowsJobs ShowsKey entries keys ∧
      (Report.ofCommandLine settings t planLine).Prints plan ∧
      plan.member? "jobs" = some jobs ∧ ShowsJobs ShowsPlanned entries jobs := by
  simp only [Report.ofCommandLine, readKeys, readPlan] at keysDone planDone ⊢
  obtain ⟨l, entries, keys, finds, resolved, printed, shown⟩ :=
    Request.run_keys alike.keys alike.keysJson keysDone
  obtain ⟨l', entries', plan, jobs, finds', resolved', printed', found, shown'⟩ :=
    Request.run_plan alike.plan alike.planJson alike.printed planDone
  obtain rfl := finds.unique alike.workflow alike.platforms finds'
  have scopes : p.scopeIn settings = k.scopeIn settings := by
    rw [Request.scopeIn, Request.scopeIn, alike.scope]
  rw [scopes, resolved] at resolved'
  obtain rfl := Except.ok.inj resolved'
  exact ⟨l, entries, keys, plan, jobs, finds, finds', resolved,
    Workflow.names_of_cacheKeys resolved, Workflow.digest_of_cacheKeys resolved, printed, shown,
    printed', found, shown'⟩

namespace Report

def succeeds (r : Report) : Bool :=
  match r.ending with
  | .status 0 => true
  | _ => false

theorem ending_of_succeeds {r : Report} (h : r.succeeds = true) : r.ending = .status 0 := by
  unfold succeeds at h
  split at h
  next done => exact done
  next => simp at h

/-- A directory with one document. -/
def desk : FileTree where
  entries := [([Text.ofString "desk"], .folder), (["desk", "ci.yml"].map Text.ofString, .file
    ("jobs: \x7bt: \x7bruns-on: linux, steps: [\x7buses: actions/cache, with: \x7bkey: k\x7d\x7d]\x7d\x7d".toList.map
      fun c => UInt8.ofNat c.toNat))]
  cwd := [Text.ofString "desk"]

def keysLine : List Text := ["keys", "--workflow", "ci.yml", "--prefix=", "--json"].map Text.ofString

def planLine : List Text := ["plan", "--json", "--prefix", "", "--workflow=ci.yml"].map Text.ofString

/-- The empty scope that is asked for goes before the one of the settings. -/
theorem desk_keys_agree_with_plan :
    let settings : Settings := { cacheScope := some "team" }
    (ofCommandLine settings desk keysLine).succeeds = true ∧
      (ofCommandLine settings desk planLine).succeeds = true ∧
      ∃ entries keys plan jobs,
        (ofCommandLine settings desk keysLine).Prints keys ∧ ShowsJobs ShowsKey entries keys ∧
        (ofCommandLine settings desk planLine).Prints plan ∧
        plan.member? "jobs" = some jobs ∧ ShowsJobs ShowsPlanned entries jobs := by
  intro settings
  have keysDone : (ofCommandLine settings desk keysLine).succeeds = true := by decide +kernel
  have planDone : (ofCommandLine settings desk planLine).succeeds = true := by decide +kernel
  obtain ⟨_, entries, keys, plan, jobs, -, -, -, -, -, printed, shown, printed', found, shown'⟩ :=
    keys_agree_with_plan settings desk keysLine planLine
      { action := .keys, workflow := some "ci.yml", scope := some [], json := true }
      { action := .plan, workflow := some "ci.yml", scope := some [], json := true }
      (by decide +kernel) (by decide +kernel) ⟨rfl, rfl, rfl, rfl, rfl, rfl, rfl, rfl⟩
      (ending_of_succeeds keysDone) (ending_of_succeeds planDone)
  exact ⟨keysDone, planDone, entries, keys, plan, jobs, printed, shown, printed', found, shown'⟩

end Report

end JobMatrix
