import Mathlib

/-!
# Pod conditions

`K8sService.isReadyPod`. Dates are objects there: `<` compares their points in time, and `===` whether they are the same
object.
-/

namespace GuardianshipAgency.Pods

/-- `ref` tells objects apart, and `time` is `none` where the date is invalid. -/
structure Date where
  ref : Nat
  time : Option ℚ
deriving DecidableEq

/-- `d < d'` -/
def Date.before (d d' : Date) : Bool :=
  match d.time, d'.time with
  | some t, some t' => t < t'
  | _, _ => false

/-- `V1PodCondition`, as far as it is read. A field that is `undefined` is `none`. -/
structure PodCondition where
  type : String
  status : String
  lastTransitionTime : Option Date := none
deriving DecidableEq

/-- What `readNamespacedPodStatus` answers. `dates` counts the dates there are so far. -/
structure PodStatus where
  conditions : List PodCondition
  dates : Nat
  known : ∀ item ∈ conditions, ∀ t ∈ item.lastTransitionTime, t.ref < dates

/-- `new Date()` is a new object. -/
def PodStatus.newDate (status : PodStatus) (now : ℚ) : Date := { ref := status.dates, time := some now }

namespace K8sService

def isStatus (item : PodCondition) : Bool := item.status == "True"

/-- The body of the first `forEach`. Nothing is less than `undefined`. -/
def latest (max : Date) (item : PodCondition) : Date :=
  match item.lastTransitionTime with
  | none => max
  | some t => if max.before t then t else max

def isLatest (max : Date) (item : PodCondition) : Bool :=
  match item.lastTransitionTime with
  | none => false
  | some t => t.ref == max.ref

/-- `isReadyPod` once it has read `status`, at the time `now`. -/
def isReadyPod (status : PodStatus) (now : ℚ) : Bool :=
  let max := status.conditions.foldl latest (status.newDate now)
  ((status.conditions.filter isStatus).filter (isLatest max)).foldl
    (fun ready item => if item.type = "Ready" then true else ready) false

end K8sService

/-! ## The running maximum -/

theorem foldl_ready (items : List PodCondition) (ready : Bool) :
    items.foldl (fun ready item => if item.type = "Ready" then true else ready) ready = true ↔
      ready = true ∨ ∃ item ∈ items, item.type = "Ready" := by
  induction items generalizing ready with
  | nil => simp
  | cons item items ih =>
      rw [List.foldl_cons, ih]
      by_cases hitem : item.type = "Ready"
      · simp [hitem]
      · simp [hitem]

/-- A pod is ready if a condition says so whose date is the very object that the running maximum ends with. -/
theorem isReadyPod_iff {status : PodStatus} {now : ℚ} :
    K8sService.isReadyPod status now = true ↔ ∃ item ∈ status.conditions, item.type = "Ready" ∧ item.status = "True" ∧
      ∃ t, item.lastTransitionTime = some t ∧
        t.ref = (status.conditions.foldl K8sService.latest (status.newDate now)).ref := by
  have hlatest : ∀ max item, K8sService.isLatest max item = true ↔
      ∃ t, item.lastTransitionTime = some t ∧ t.ref = max.ref := by
    intro max item
    unfold K8sService.isLatest
    cases item.lastTransitionTime with
    | none => simp
    | some t => simp
  simp only [K8sService.isReadyPod, foldl_ready, List.mem_filter, K8sService.isStatus, hlatest, beq_iff_eq,
    Bool.false_eq_true, false_or]
  constructor
  · rintro ⟨item, ⟨⟨hmem, hstatus⟩, ht⟩, htype⟩
    exact ⟨item, hmem, htype, hstatus, ht⟩
  · rintro ⟨item, hmem, htype, hstatus, ht⟩
    exact ⟨item, ⟨⟨hmem, hstatus⟩, ht⟩, htype⟩

theorem foldl_latest_of_not_before {items : List PodCondition} {max : Date}
    (h : ∀ item ∈ items, ∀ t, item.lastTransitionTime = some t → max.before t = false) :
    items.foldl K8sService.latest max = max := by
  induction items with
  | nil => rfl
  | cons item items ih =>
      have hstep : K8sService.latest max item = max := by
        unfold K8sService.latest
        cases hitem : item.lastTransitionTime with
        | none => rfl
        | some t => simp [h item List.mem_cons_self t hitem]
      rw [List.foldl_cons, hstep]
      exact ih fun other hother => h other (List.mem_cons_of_mem _ hother)

/-! ## Readiness -/

/-- `lastTransitionTime` as a point in time. -/
def PodCondition.time (item : PodCondition) : Option ℚ := item.lastTransitionTime.bind (·.time)

/-- No condition has changed after `now`. -/
def Past (items : List PodCondition) (now : ℚ) : Prop := ∀ item ∈ items, ∀ t, item.time = some t → t ≤ now

/-- A condition says that the pod is ready, and none has changed after it. -/
def ReadyAtLatest (items : List PodCondition) : Prop :=
  ∃ item ∈ items, item.type = "Ready" ∧ item.status = "True" ∧ ∃ t, item.time = some t ∧ Past items t

theorem isReadyPod_of_past {status : PodStatus} {now : ℚ} (hpast : Past status.conditions now) :
    K8sService.isReadyPod status now = false := by
  have hmax : status.conditions.foldl K8sService.latest (status.newDate now) = status.newDate now := by
    refine foldl_latest_of_not_before fun item hitem t ht => ?_
    cases htime : t.time with
    | none => simp [Date.before, htime]
    | some time =>
        have hle : time ≤ now := hpast item hitem time (by simp [PodCondition.time, ht, htime])
        simp [Date.before, PodStatus.newDate, htime, hle]
  rw [← Bool.not_eq_true, isReadyPod_iff, hmax]
  rintro ⟨item, hitem, -, -, t, ht, href⟩
  exact absurd href (Nat.ne_of_lt (status.known item hitem t ht))

/-- The code tells whether the pod is ready, whatever the order of the conditions. -/
def Detected (status : PodStatus) (now : ℚ) : Prop :=
  (K8sService.isReadyPod status now = true ↔ ReadyAtLatest status.conditions) ∧
    ∀ status' : PodStatus, status'.conditions.Perm status.conditions →
      K8sService.isReadyPod status' now = K8sService.isReadyPod status now

/-- As the running maximum starts with a new object, which no condition has, only pods that are not ready are told
right. -/
theorem isReadyPod_detects_iff {status : PodStatus} {now : ℚ} (hpast : Past status.conditions now) :
    Detected status now ↔ ¬ReadyAtLatest status.conditions := by
  have hfalse := isReadyPod_of_past hpast
  constructor
  · rintro ⟨hiff, -⟩ hready
    rw [hiff.mpr hready] at hfalse
    cases hfalse
  · intro hready
    refine ⟨by simp [hfalse, hready], fun status' hperm => ?_⟩
    rw [hfalse]
    exact isReadyPod_of_past fun item hitem => hpast item (hperm.mem_iff.mp hitem)

def readyStatus : PodStatus where
  conditions :=
    [{ type := "PodScheduled", status := "True", lastTransitionTime := some { ref := 0, time := some 1000 } },
      { type := "Ready", status := "True", lastTransitionTime := some { ref := 1, time := some 4000 } }]
  dates := 2
  known := by simp

def unreadyStatus : PodStatus where
  conditions := [{ type := "Ready", status := "False", lastTransitionTime := some { ref := 0, time := some 4000 } }]
  dates := 1
  known := by simp

theorem isReadyPod_detects_unready : Past unreadyStatus.conditions 5000 ∧ Detected unreadyStatus 5000 := by
  have hpast : Past unreadyStatus.conditions 5000 := by
    simp only [Past, unreadyStatus, PodCondition.time, List.mem_singleton]
    rintro item rfl t ht
    cases ht
    norm_num
  refine ⟨hpast, (isReadyPod_detects_iff hpast).mpr ?_⟩
  simp [ReadyAtLatest, unreadyStatus]

/-- A pod that is ready is not told to be. -/
theorem not_forall_detected : ¬∀ (status : PodStatus) (now : ℚ), status.conditions ≠ [] →
    Past status.conditions now → Detected status now := by
  intro h
  have hpast : ∀ now, 4000 ≤ now → Past readyStatus.conditions now := by
    simp only [Past, readyStatus, PodCondition.time, List.mem_cons, List.not_mem_nil, or_false]
    rintro now hnow item (rfl | rfl) t ht
    · cases ht
      linarith
    · cases ht
      exact hnow
  have hready : ReadyAtLatest readyStatus.conditions :=
    ⟨_, List.mem_cons_of_mem _ (List.mem_singleton_self _), rfl, rfl, 4000, rfl, hpast 4000 (le_refl _)⟩
  have htrue := (h readyStatus 5000 (by simp [readyStatus]) (hpast 5000 (by norm_num))).1.mpr hready
  have hfalse : K8sService.isReadyPod readyStatus 5000 = false := by decide +kernel
  rw [hfalse] at htrue
  cases htrue

end GuardianshipAgency.Pods
