import CGateway.Http.Server

/-! # The task on its way to the Router

`validate_decide_request` insists on a task with a type and a payload; `build_route_request_json` makes
the RouteRequest from the members it knows, and the task is not among them.

* `withTask` — a body's members with another task, which are validated and forwarded alike. -/

namespace CGateway

open Bytes CString Json

/-! ### Another task -/

/-- A task of this type with an empty payload. -/
def plainTask (type : List UInt8) : Json :=
  .object [(ascii "type", .string type), (ascii "payload", .object [])]

/-- The members of a body with another task. -/
def withTask (type : List UInt8) (members : Members) : Members :=
  setMember (ascii "task") (plainTask type) members

/-- The type of the task in a body. -/
def taskType (jsonLoads : List UInt8 → Option Json) (body : List UInt8) : Option (List UInt8) :=
  asString (((asObject (jsonLoads body)).bind (lookup · (ascii "task"))).bind (·.get? (ascii "type")))

/-- Lower-case ASCII letters. -/
def isLower (b : UInt8) : Bool := 97 ≤ b && b ≤ 122

/-- What `json_loads` reads from a text, with the task replaced by one whose type is a plain word, it
reads from some text as well. -/
def ReadsOtherTasks (jsonLoads : List UInt8 → Option Json) : Prop :=
  ∀ (body : List UInt8) (members : Members) (type : List UInt8),
    jsonLoads body = some (.object members) → (∀ b ∈ type, isLower b = true) →
      ∃ body', jsonLoads body' = some (.object (withTask type members))

section Task

variable {members : Members} (type : List UInt8)

/-- The new task is in its place. -/
theorem lookup_withTask_task : lookup (withTask type members) (ascii "task") = some (plainTask type) :=
  lookup_setMember_self ..

/-- The other members are as they were. -/
theorem lookup_withTask {key : String} (hne : ascii key ≠ ascii "task") :
    lookup (withTask type members) (ascii key) = lookup members (ascii key) :=
  lookup_setMember_of_ne hne ..

/-- A RouteRequest is the same for every task. -/
theorem routeObject_withTask (ctx : RequestContext) :
    routeObject ctx (withTask type members) = routeObject ctx members := by
  apply routeObject_congr
  have hne : ∀ key ∈ routeKeys, ascii key ≠ ascii "task" := by decide
  intro key hkey _
  exact lookup_withTask type (hne key hkey)

/-- The new task is as acceptable as the old one. -/
theorem isDecideRequest_withTask (haccepted : isDecideRequest members = true) :
    isDecideRequest (withTask type members) = true := by
  have htype : (asString ((plainTask type).get? (ascii "type"))).isSome = true := rfl
  have hpayload : (asObject ((plainTask type).get? (ascii "payload"))).isSome = true := by
    have hne : ascii "type" ≠ ascii "payload" := by decide
    rw [plainTask, get?, lookup_cons, if_neg hne, lookup_cons, if_pos rfl]
    rfl
  unfold isDecideRequest at haccepted ⊢
  rw [lookup_withTask_task, lookup_withTask type (by decide),
    lookup_withTask type (by decide), lookup_withTask type (by decide)]
  simp only [Bool.and_eq_true] at haccepted ⊢
  obtain ⟨⟨⟨⟨⟨hversion, htenant⟩, hrequest⟩, -⟩, -⟩, -⟩ := haccepted
  exact ⟨⟨⟨⟨⟨hversion, htenant⟩, hrequest⟩, rfl⟩, htype⟩, hpayload⟩

end Task

section Loss

variable {h : Host} {body : List UInt8} {ctx ctx' : RequestContext}

/-- An accepted body is an object that is a decide request. -/
theorem members_of_accepted (haccepted : validateDecideRequest h.jsonLoads body ctx = some ctx') :
    ∃ members, h.jsonLoads body = some (.object members) ∧ isDecideRequest members = true := by
  unfold validateDecideRequest at haccepted
  cases hload : h.jsonLoads body with
  | none => rw [hload] at haccepted; cases haccepted
  | some value =>
    rw [hload] at haccepted
    cases value with
    | object members =>
      refine ⟨members, rfl, ?_⟩
      by_contra hnot
      simp [asObject, hnot] at haccepted
    | _ => cases haccepted

/-- **The task is never recoverable.** For every context and every accepted body there is another body,
with a task of another type, that is accepted with the same context and makes the same RouteRequest. -/
theorem task_never_recoverable (hreads : ReadsOtherTasks h.jsonLoads)
    (haccepted : validateDecideRequest h.jsonLoads body ctx = some ctx') :
    ∃ body', validateDecideRequest h.jsonLoads body' ctx = some ctx' ∧
      (∀ c, buildRouteRequestJson h body' c = buildRouteRequestJson h body c) ∧
      taskType h.jsonLoads body' ≠ taskType h.jsonLoads body := by
  obtain ⟨members, hload, hdecide⟩ := members_of_accepted haccepted
  -- One of two words is not the type of the task at hand.
  obtain ⟨type, hlower, hother⟩ : ∃ type : List UInt8, (∀ b ∈ type, isLower b = true) ∧
      some type ≠ taskType h.jsonLoads body := by
    by_cases hfirst : some (ascii "read") = taskType h.jsonLoads body
    · refine ⟨ascii "write", by decide +kernel, ?_⟩
      rw [← hfirst]
      decide
    · exact ⟨ascii "read", by decide +kernel, hfirst⟩
  obtain ⟨body', hload'⟩ := hreads body members type hload hlower
  refine ⟨body', ?_, ?_, ?_⟩
  · rw [← haccepted]
    unfold validateDecideRequest
    rw [hload, hload']
    simp only [asObject]
    rw [if_pos hdecide, if_pos (isDecideRequest_withTask type hdecide),
      lookup_withTask type (by decide), lookup_withTask type (by decide)]
  · intro c
    unfold buildRouteRequestJson
    rw [hload, hload']
    simp only [asObject, routeObject_withTask]
  · have htype : taskType h.jsonLoads body' = some type := by
      rw [taskType, hload']
      simp only [asObject, Option.bind_some, lookup_withTask_task]
      rfl
    rw [htype]
    exact hother

end Loss

/-! ### A library that reads one kind of text -/

/-- The text before the task's type. -/
def taskTextHead : List UInt8 :=
  ascii "\x7b\"version\":\"1\",\"tenant_id\":\"acme\",\"request_id\":\"r1\",\"task\":\x7b\"type\":\""

/-- The text behind the task's type. -/
def taskTextTail : List UInt8 := ascii "\",\"payload\":\x7b\x7d\x7d\x7d"

/-- A decide request with a task of this type. -/
def taskText (type : List UInt8) : List UInt8 := taskTextHead ++ type ++ taskTextTail

/-- What `json_loads` makes of these decide requests; it reads no other text. -/
def loadTaskText (text : List UInt8) : Option Json :=
  let type := (text.drop taskTextHead.length).takeWhile isLower
  if text = taskText type then some (.object (withTask type sampleMembers)) else none

/-- A host with this library. -/
def taskHost : Host := { sampleHost [] with jsonLoads := loadTaskText }

/-- A decide request is read, whatever the type of its task. -/
theorem loadTaskText_taskText {type : List UInt8} (hlower : ∀ b ∈ type, isLower b = true) :
    loadTaskText (taskText type) = some (.object (withTask type sampleMembers)) := by
  have htype : ((taskText type).drop taskTextHead.length).takeWhile isLower = type := by
    rw [taskText, List.append_assoc, List.drop_left]
    rw [List.takeWhile_append_of_pos hlower]
    have htail : taskTextTail.takeWhile isLower = [] := by decide
    rw [htail, List.append_nil]
  rw [loadTaskText, htype, if_pos rfl]

/-- The library reads every other task. -/
theorem readsOtherTasks_loadTaskText : ReadsOtherTasks loadTaskText := by
  intro body members type hload hlower
  rw [loadTaskText] at hload
  split at hload
  · obtain rfl := (Json.object.inj (Option.some.inj hload)).symm
    refine ⟨taskText type, ?_⟩
    rw [loadTaskText_taskText hlower, withTask, withTask, withTask, setMember_setMember]
  · cases hload

/-- **Two tasks, one RouteRequest.** A request to chat and a request to purge are both accepted, and the
Router is sent the same text for both. -/
theorem chat_and_purge_forwarded_alike :
    (validateDecideRequest loadTaskText (taskText (ascii "chat")) {}).isSome = true ∧
      (validateDecideRequest loadTaskText (taskText (ascii "purge")) {}).isSome = true ∧
      (buildRouteRequestJson taskHost (taskText (ascii "chat")) {}).map (·.2) =
        some (ascii "\x7b\"version\":\"1\",\"tenant_id\":\"acme\"," ++
          ascii "\"request_id\":\"r1\",\"message\":\x7b\x7d\x7d") ∧
      (buildRouteRequestJson taskHost (taskText (ascii "purge")) {}).map (·.2) =
        (buildRouteRequestJson taskHost (taskText (ascii "chat")) {}).map (·.2) ∧
      taskType loadTaskText (taskText (ascii "chat")) = some (ascii "chat") ∧
      taskType loadTaskText (taskText (ascii "purge")) = some (ascii "purge") := by
  decide +kernel

/-- A request to chat is not told from some other request. -/
theorem chat_not_recoverable :
    ∃ body', validateDecideRequest taskHost.jsonLoads body' {} = some { requestId := ascii "r1" } ∧
      (∀ c, buildRouteRequestJson taskHost body' c = buildRouteRequestJson taskHost (taskText (ascii "chat")) c) ∧
      taskType taskHost.jsonLoads body' ≠ taskType taskHost.jsonLoads (taskText (ascii "chat")) :=
  task_never_recoverable (h := taskHost) readsOtherTasks_loadTaskText (by decide)

end CGateway
