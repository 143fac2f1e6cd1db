import CGateway.Lib.BoundedMap
import CGateway.Lib.Slots
import CGateway.Http.ParseRequest
import CGateway.Http.Stores

/-! # The block registry as a map

The registry keeps at most 64 blocks under their type and their version, the two segments of a path. A type
segment is cut to 127 bytes before it is stored or compared. A version is cut to 63 bytes when it is stored,
but compared as it came. So a block whose version has 64 bytes or more is never found again, and one whose
type has 127 bytes is found under longer types too.

* `registryCall` — the operation on the table that a connection asks for;
* `httpStep_performs` — what a connection does to the table, and what it is answered;
* `StoredWhole` — the tables in which every block is under its own key;
* `registryApply_spec`, `registryApply_long` — an operation on such a table is one on the map it stands for,
  unless a block is created under a key that is cut;
* `registry_map_iff` — the same over runs. -/

namespace CGateway

open Bytes CString Json Machine BoundedMap

/-! ### Operations -/

/-- The type and the version of a block. -/
abbrev BlockKey := List UInt8 × List UInt8

/-- An operation on the registry, with the segments of the path and the text of the manifest. -/
abbrev BlockOp := Op BlockKey (List UInt8)

/-- The key under which a block is stored. -/
def BlockEntry.key (e : BlockEntry) : BlockKey := (e.type, e.version)

/-- The map behind the table: the manifest that the segments of a path find, and the number of blocks. -/
def blocksOf (entries : List BlockEntry) : Contents BlockKey (List UInt8) where
  get k := ((registryFind (k.1.take 127) k.2 entries).bind (entries[·]?)).map BlockEntry.manifestJson
  size := entries.length

/-- What a write or a deletion asks for, if its manifest is accepted. -/
def requestedOp (h : Host) (rq : HttpRequest) (key : BlockKey) : Option BlockOp :=
  if rq.method = ascii "DELETE" then some (.remove key)
  else
    match asObject (h.jsonLoads rq.body) with
    | none => none
    | some members =>
        if (manifestError members (key.1.take 127) key.2).isSome then none
        else (h.jsonDumps (.object members)).map fun manifest => .put key (cstr manifest)

/-- The operation of a request for the registry with that rest of the path. -/
def branchCall (h : Host) (x : Exchange) (g : Gateway) (rq : HttpRequest) (rest : List UInt8) :
    Option BlockOp :=
  let key := (rest.takeWhile (· != 47), (rest.dropWhile (· != 47)).drop 1)
  if key.2 = [] ∨ limitVerdict h x g .registryBlocks (some rq.ctx.tenantId) ≠ .allowed then none
  else requestedOp h rq key

/-- The operation that a connection asks for and is allowed to make. -/
def registryCall (h : Host) (x : Exchange) (g : Gateway) : Option BlockOp :=
  match parseRequest (firstRead x) with
  | none => none
  | some rq =>
      match routeOf rq.method rq.path with
      | .registry rest => branchCall h x g rq rest
      | _ => none

/-- An operation on the table. -/
def registryApply (entries : List BlockEntry) : BlockOp → List BlockEntry × Answer
  | .put key manifest =>
      match registryUpsert (key.1.take 127) key.2 manifest entries with
      | none => (entries, .full)
      | some (created, entries') => (entries', if created then .created else .updated)
  | .remove key =>
      match registryDelete (key.1.take 127) key.2 entries with
      | none => (entries, .absent)
      | some entries' => (entries', .removed)

/-- The response of `send_response`. -/
def jsonResponse (status : StatusLine) (body : List UInt8) : Response :=
  ⟨status, responseHeaders "application/json" body.length, body⟩

/-- What the client is told of an operation. -/
def blockResponse (now : ℤ) : BlockOp → Answer → Response
  | .put key _, .created => jsonResponse .created (registryWriteBody (key.1.take 127) key.2 true now)
  | .put key _, .updated => jsonResponse .ok (registryWriteBody (key.1.take 127) key.2 false now)
  | .put _ _, _ => errorResponse .internalServerError "internal" "registry capacity reached" {}
  | .remove key, .removed => jsonResponse .ok (registryDeleteBody (key.1.take 127) key.2 now)
  | .remove _, _ => errorResponse .notFound "not_found" "block not found" {}

/-! ### One connection -/

/-- The table is changed by the operation, if there is one, and the client is told of it. -/
def Performs (x : Exchange) (w w' : World) : Option BlockOp → Prop
  | none => w'.gateway.registry = w.gateway.registry
  | some op =>
      w'.gateway.registry = (registryApply w.gateway.registry op).1 ∧
        responses w'.effects = responses w.effects ++
          [blockResponse x.clock.answer op (registryApply w.gateway.registry op).2]

section Connection

variable {h : Host} {x : Exchange} {rq : HttpRequest} {w : World}

/-- What is done before and behind an operation, without a response. -/
theorem Performs.between {w₀ w' w'' : World} {op? : Option BlockOp} (hperforms : Performs x w w' op?)
    (hbefore : w.gateway.registry = w₀.gateway.registry ∧ responses w.effects = responses w₀.effects)
    (hafter : w''.gateway.registry = w'.gateway.registry ∧ responses w''.effects = responses w'.effects) :
    Performs x w₀ w'' op? := by
  cases op? with
  | none => exact hafter.1.trans (hperforms.trans hbefore.1)
  | some op =>
    unfold Performs at hperforms ⊢
    dsimp only at hperforms ⊢
    rw [hbefore.1, hbefore.2] at hperforms
    exact ⟨hafter.1.trans hperforms.1, hafter.2.trans hperforms.2⟩

/-- A deletion. -/
theorem handleRegistryDelete_performs (key : BlockKey) :
    Performs x w (handleRegistryDelete x (key.1.take 127) key.2 w) (some (.remove key)) := by
  unfold handleRegistryDelete
  dsimp only [Performs, registryApply]
  cases registryDelete (key.1.take 127) key.2 w.gateway.registry with
  | none => exact ⟨rfl, responses_append ..⟩
  | some entries => exact ⟨rfl, responses_append ..⟩

/-- A write, which may be refused for its manifest. -/
theorem handleRegistryWriteCommon_performs (hmethod : rq.method ≠ ascii "DELETE") (key : BlockKey) :
    Performs x w (handleRegistryWriteCommon h x (key.1.take 127) key.2 rq.body w)
      (requestedOp h rq key) := by
  unfold requestedOp handleRegistryWriteCommon
  rw [if_neg hmethod]
  cases asObject (h.jsonLoads rq.body) with
  | none => rfl
  | some members =>
    dsimp only
    cases manifestError members (key.1.take 127) key.2 with
    | some error => rfl
    | none =>
      rw [if_neg (by decide)]
      cases h.jsonDumps (.object members) with
      | none => rfl
      | some manifest =>
        dsimp only [Option.map_some, Performs, registryApply]
        cases registryUpsert (key.1.take 127) key.2 (cstr manifest) w.gateway.registry with
        | none => exact ⟨rfl, responses_append ..⟩
        | some outcome =>
          obtain ⟨created, entries⟩ := outcome
          cases created with
          | true => exact ⟨rfl, responses_append ..⟩
          | false => exact ⟨rfl, responses_append ..⟩

/-- The registry branch: the path, the limit, the operation. -/
theorem serveRegistry_performs (rest : List UInt8) (w : World) :
    Performs x w (serveRegistry h x rq rest w) (branchCall h x w.gateway rq rest) := by
  have hend : ∀ w : World, (finish x (sampleLatency x w)).gateway.registry = w.gateway.registry ∧
      responses (finish x (sampleLatency x w)).effects = responses w.effects := by
    intro w
    refine ⟨rfl, ?_⟩
    show responses (w.effects ++ [.spanEnd .http] ++ [.close x.fd]) = _
    rw [responses_append, responses_append]
    simp [responses, Effect.response?]
  unfold serveRegistry branchCall
  dsimp only
  cases hrest : rest.dropWhile (· != 47) with
  | nil => rfl
  | cons slash version =>
    have hdrop : (slash :: version).drop 1 = version := rfl
    rw [hdrop]
    dsimp only
    by_cases hversion : version = []
    · rw [if_pos hversion, if_pos (.inl hversion)]
      rfl
    · rw [if_neg hversion]
      obtain ⟨g', commands, hcheck⟩ := rateLimitCheck_spec h x w .registryBlocks
        (some rq.ctx.tenantId)
      have hkept := keeps_of_check hcheck
      rw [hcheck]
      cases hverdict : limitVerdict h x w.gateway .registryBlocks (some rq.ctx.tenantId) with
      | exceeded =>
        rw [if_pos (.inr nofun)]
        exact ((hkept.trans (keeps_sendRateLimitError _ _)).finish).registry
      | error =>
        rw [if_pos (.inr nofun)]
        exact ((hkept.trans (keeps_sendRateLimitError _ _)).finish).registry
      | allowed =>
        have hopen : ¬ (version = [] ∨ RlVerdict.allowed ≠ .allowed) := by
          simp [hversion]
        have hbefore : responses (w.effects ++
            Effect.rateLimitCheck .registryBlocks (some rq.ctx.tenantId) :: commands.map .redis) =
              responses w.effects := by
          rw [responses_append]
          have hnone := responses_limitCheck .registryBlocks rq.ctx commands
          exact (congrArg (responses w.effects ++ ·) hnone).trans (List.append_nil _)
        rw [if_neg hopen]
        dsimp only
        by_cases hmethod : rq.method = ascii "DELETE"
        · rw [if_pos hmethod, requestedOp, if_pos hmethod]
          exact (handleRegistryDelete_performs _).between ⟨hkept.registry, hbefore⟩ (hend _)
        · rw [if_neg hmethod]
          exact (handleRegistryWriteCommon_performs hmethod _).between ⟨hkept.registry, hbefore⟩
            (hend _)

/-- **What a connection does to the registry.** -/
theorem httpStep_performs (h : Host) (g : Gateway) (x : Exchange) :
    Performs x ⟨g, []⟩ ⟨(httpStep h g x).1, (httpStep h g x).2⟩ (registryCall h x g) := by
  unfold registryCall
  cases hparse : parseRequest (firstRead x) with
  | none =>
    show (httpStep h g x).1.registry = g.registry
    unfold httpStep handleClient serveBytes
    rw [hparse]
    split <;> rfl
  | some rq =>
    rw [httpStep_of_parse hparse]
    dsimp only
    have hothers : (routeOf rq.method rq.path).isRegistry = false →
        (serve h x rq ⟨countRequest g, [.spanStart .http]⟩).gateway.registry = g.registry := by
      intro hregistry
      by_cases hstream : routeOf rq.method rq.path = .stream
      · rw [serve, hstream]
        exact registry_serveStream _
      · obtain ⟨ops, htells⟩ := serve_tells (h := h) (x := x) hregistry hstream
          ⟨countRequest g, [.spanStart .http]⟩
        exact htells.registry
    cases hroute : routeOf rq.method rq.path with
    | registry rest =>
      have hcall : branchCall h x (countRequest g) rq rest = branchCall h x g rq rest := by
        rw [branchCall, branchCall, limitVerdict_countRequest]
      have hperforms : Performs x ⟨countRequest g, [.spanStart .http]⟩
          (serveRegistry h x rq rest ⟨countRequest g, [.spanStart .http]⟩)
          (branchCall h x (countRequest g) rq rest) :=
        serveRegistry_performs rest _
      rw [hcall] at hperforms
      rw [serve, hroute]
      exact hperforms.between ⟨rfl, rfl⟩ ⟨rfl, rfl⟩
    | _ => exact hothers (by rw [hroute]; rfl)

end Connection

/-! ### Tables in which every block is under its own key -/

/-- No key is cut, and none is stored twice. -/
structure StoredWhole (entries : List BlockEntry) : Prop where
  unique : UniqueKeys BlockEntry.key entries
  fits : ∀ e ∈ entries, e.type.length ≤ 126 ∧ e.version.length ≤ 63

/-- The operation keeps every block under its own key and is one on the map. -/
def IsMapStep (entries : List BlockEntry) (op : BlockOp) : Prop :=
  StoredWhole (registryApply entries op).1 ∧ step registryCap (blocksOf entries) op =
    (blocksOf (registryApply entries op).1, (registryApply entries op).2)

/-- The operation creates a block under a key that is not stored whole. -/
def CreatesLong (entries : List BlockEntry) : BlockOp → Prop
  | .put key manifest =>
      (step registryCap (blocksOf entries) (.put key manifest)).2 = .created ∧
        (127 ≤ key.1.length ∨ 64 ≤ key.2.length)
  | .remove _ => False

section Table

variable {entries : List BlockEntry} {key : BlockKey} {manifest : List UInt8}

section Fits

variable (hfits : ∀ e ∈ entries, e.type.length ≤ 126)
include hfits

/-- A type that is stored whole is found by itself only. -/
theorem registryFind_eq (key : BlockKey) :
    registryFind (key.1.take 127) key.2 entries = entries.findIdx? fun e => e.key = key := by
  unfold registryFind
  induction entries with
  | nil => rfl
  | cons e entries ih =>
    rw [List.forall_mem_cons] at hfits
    have hsame : (e.type == key.1.take 127 && e.version == key.2) = decide (e.key = key) := by
      rw [Bool.eq_iff_iff, Bool.and_eq_true, beq_iff_eq, beq_iff_eq, decide_eq_true_iff, BlockEntry.key, Prod.ext_iff]
      refine and_congr_left fun _ => ⟨?_, ?_⟩
      · intro htype
        have hlength := congrArg List.length htype
        rw [List.length_take] at hlength
        rw [htype, List.take_of_length_le (by omega)]
      · intro htype
        dsimp only at htype
        rw [← htype, List.take_of_length_le (by omega)]
    rw [List.findIdx?_cons, List.findIdx?_cons, hsame, ih hfits.2]

/-- Such a table stands for the map of its entries. -/
theorem blocksOf_eq : blocksOf entries = contents BlockEntry.key BlockEntry.manifestJson entries := by
  refine Contents.ext (funext fun key => ?_) rfl
  dsimp only [blocksOf, contents]
  rw [registryFind_eq hfits, List.find?_eq_bind_findIdx?_getElem?]

/-- Where a key is found. -/
theorem exists_of_registryFind {idx : ℕ} (hfind : registryFind (key.1.take 127) key.2 entries = some idx) :
    ∃ pre e post, entries = pre ++ e :: post ∧ pre.length = idx ∧ e.key = key := by
  rw [registryFind_eq hfits, List.findIdx?_eq_some_iff_getElem] at hfind
  obtain ⟨hidx, hkey, -⟩ := hfind
  refine ⟨entries.take idx, entries[idx], entries.drop (idx + 1), ?_, ?_, by simpa using hkey⟩
  · rw [← List.drop_eq_getElem_cons hidx, List.take_append_drop]
  · rw [List.length_take, Nat.min_eq_left hidx.le]

/-- Where it is not. -/
theorem notMem_of_registryFind (hfind : registryFind (key.1.take 127) key.2 entries = none) :
    key ∉ entries.map BlockEntry.key := by
  rw [registryFind_eq hfits, List.findIdx?_eq_none_iff] at hfind
  rintro hmem
  obtain ⟨e, he, hkey⟩ := List.mem_map.mp hmem
  exact absurd hkey (by simpa using hfind e he)

end Fits

/-- The map has the keys that are found. -/
theorem get_blocksOf_eq_none_iff :
    (blocksOf entries).get key = none ↔ registryFind (key.1.take 127) key.2 entries = none := by
  dsimp only [blocksOf]
  rw [Option.map_eq_none_iff, registryFind, ← List.find?_eq_bind_findIdx?_getElem?, List.find?_eq_none,
    List.findIdx?_eq_none_iff]
  exact forall₂_congr fun e _ => Iff.of_eq (Bool.not_eq_true _)

/-- Fewer entries, in some order, are stored as they were. -/
theorem StoredWhole.of_perm_sublist {entries' sub : List BlockEntry} (hwhole : StoredWhole entries)
    (hsub : sub.Sublist entries) (hperm : entries'.Perm sub) : StoredWhole entries' := by
  refine ⟨?_, ?_⟩
  · exact (hperm.map BlockEntry.key).nodup_iff.mpr ((hsub.map BlockEntry.key).nodup hwhole.unique)
  · intro e he
    exact hwhole.fits e (hsub.mem (hperm.mem_iff.mp he))

/-- The types that are stored whole. -/
theorem StoredWhole.types (hwhole : StoredWhole entries) : ∀ e ∈ entries, e.type.length ≤ 126 :=
  fun e he => (hwhole.fits e he).1

/-- **An update.** -/
theorem registryApply_update (hwhole : StoredWhole entries) {idx : ℕ} (manifest : List UInt8)
    (hfind : registryFind (key.1.take 127) key.2 entries = some idx) : IsMapStep entries (.put key manifest) := by
  have happly : registryApply entries (.put key manifest) =
      (entries.modify idx fun e => { e with manifestJson := manifest }, .updated) := by
    dsimp only [registryApply, registryUpsert]
    rw [hfind]
    rfl
  obtain ⟨pre, e, post, rfl, rfl, rfl⟩ := exists_of_registryFind hwhole.types hfind
  rw [IsMapStep, happly, Slots.modify_append_self]
  have hafter : StoredWhole (pre ++ { e with manifestJson := manifest } :: post) := by
    refine ⟨?_, ?_⟩
    · have hunique := hwhole.unique
      unfold UniqueKeys at hunique ⊢
      rw [List.map_append, List.map_cons] at hunique ⊢
      exact hunique
    · have hfits := hwhole.fits
      rw [List.forall_mem_append, List.forall_mem_cons] at hfits ⊢
      exact hfits
  refine ⟨hafter, ?_⟩
  rw [blocksOf_eq hwhole.types, blocksOf_eq hafter.types]
  exact step_put_found hwhole.unique { e with manifestJson := manifest } rfl

section Create

variable (manifest : List UInt8) (hfind : registryFind (key.1.take 127) key.2 entries = none)
  (hroom : entries.length < registryCap) (hzero : 0 ∉ key.1 ∧ 0 ∉ key.2) (hwhole : StoredWhole entries)
include hfind hroom hzero

/-- What a write makes of a new key. -/
theorem registryApply_new :
    registryApply entries (.put key manifest) = (entries ++ [⟨key.1.take 127, key.2.take 63, manifest⟩], .created) := by
  have htype : copyField 128 (key.1.take 127) = key.1.take 127 := by
    rw [copyField, cstr_of_no_zero fun hmem => hzero.1 (List.mem_of_mem_take hmem), List.take_take]
    rfl
  have hversion : copyField 64 key.2 = key.2.take 63 := by
    rw [copyField, cstr_of_no_zero hzero.2]
  dsimp only [registryApply, registryUpsert]
  rw [hfind]
  dsimp only
  rw [if_neg (Nat.not_le.mpr hroom), htype, hversion]
  rfl

include hwhole

/-- **A new block**, under a key that is stored whole. -/
theorem registryApply_create (hfits : key.1.length ≤ 126 ∧ key.2.length ≤ 63) :
    IsMapStep entries (.put key manifest) := by
  have hnew : key ∉ entries.map BlockEntry.key := notMem_of_registryFind hwhole.types hfind
  rw [IsMapStep, registryApply_new manifest hfind hroom hzero, List.take_of_length_le (by omega),
    List.take_of_length_le hfits.2]
  have hafter : StoredWhole (entries ++ [⟨key.1, key.2, manifest⟩]) := by
    refine ⟨?_, ?_⟩
    · unfold UniqueKeys
      rw [List.map_append, List.nodup_append]
      refine ⟨hwhole.unique, List.nodup_singleton _, ?_⟩
      rintro a ha b hb rfl
      rw [List.mem_singleton.mp hb] at ha
      exact hnew ha
    · rw [List.forall_mem_append, List.forall_mem_singleton]
      exact ⟨hwhole.fits, hfits⟩
  refine ⟨hafter, ?_⟩
  rw [blocksOf_eq hwhole.types, blocksOf_eq hafter.types]
  exact step_put_new ⟨key.1, key.2, manifest⟩ hnew hroom

/-- **A new block under a key that is cut.** The table does not stand for the map with that block. -/
theorem registryApply_createLong (hlong : 127 ≤ key.1.length ∨ 64 ≤ key.2.length) :
    (step registryCap (blocksOf entries) (.put key manifest)).1 ≠
      blocksOf (registryApply entries (.put key manifest)).1 := by
  rw [step_put_of_none (get_blocksOf_eq_none_iff.mpr hfind) hroom, registryApply_new manifest hfind hroom hzero]
  intro hsame
  have hget := congrArg Contents.get hsame
  by_cases hversion : 64 ≤ key.2.length
  · -- no version that is stored has as many bytes, so the block is not found
    have hkey := congrFun hget key
    dsimp only at hkey
    rw [Function.update_self] at hkey
    have hlost : registryFind (key.1.take 127) key.2
        (entries ++ [⟨key.1.take 127, key.2.take 63, manifest⟩]) = none := by
      unfold registryFind
      rw [List.findIdx?_eq_none_iff]
      intro e he
      have hshort : e.version.length ≤ 63 := by
        rcases List.mem_append.mp he with he | he
        · exact (hwhole.fits e he).2
        · rw [List.mem_singleton.mp he]
          exact List.length_take_le ..
      have hne : e.version ≠ key.2 := fun heq => by
        rw [heq] at hshort
        omega
      simp [hne]
    dsimp only [blocksOf] at hkey
    rw [hlost] at hkey
    exact absurd hkey nofun
  · -- the block is found under a longer type too, which no block was stored under
    have htype : 127 ≤ key.1.length := hlong.resolve_right hversion
    have hkey := congrFun hget (key.1 ++ [97], key.2)
    have hne : (key.1 ++ [97], key.2) ≠ key := fun heq => by
      have hlength := congrArg (fun k : BlockKey => k.1.length) heq
      simp at hlength
    dsimp only at hkey
    have hcut : (key.1 ++ [97]).take 127 = key.1.take 127 := List.take_append_of_le_length htype
    rw [Function.update_of_ne hne] at hkey
    dsimp only [blocksOf] at hkey
    rw [hcut, hfind, registryFind, ← List.find?_eq_bind_findIdx?_getElem?,
      List.take_of_length_le (by omega : key.2.length ≤ 63)] at hkey
    have hall := List.find?_eq_none.mp (Option.map_eq_none_iff.mp hkey.symm)
    refine hall ⟨key.1.take 127, key.2, manifest⟩ ?_ ?_
    · exact List.mem_append_right _ (List.mem_singleton_self _)
    · simp

end Create

/-- **A deletion.** -/
theorem registryApply_delete (hwhole : StoredWhole entries) {idx : ℕ}
    (hfind : registryFind (key.1.take 127) key.2 entries = some idx) : IsMapStep entries (.remove key) := by
  obtain ⟨pre, e, post, rfl, rfl, rfl⟩ := exists_of_registryFind hwhole.types hfind
  obtain ⟨last, hlast⟩ : ∃ last, (pre ++ e :: post).getLast? = some last := Option.ne_none_iff_exists'.mp (by simp)
  have happly : registryApply (pre ++ e :: post) (.remove e.key) =
      (((pre ++ e :: post).set pre.length last).dropLast, .removed) := by
    dsimp only [registryApply, registryDelete]
    rw [hfind, hlast]
  have hsub : (pre ++ post).Sublist (pre ++ e :: post) := (List.Sublist.refl pre).append (List.sublist_cons_self e post)
  have hafter := hwhole.of_perm_sublist hsub (set_dropLast_perm hlast)
  rw [IsMapStep, happly]
  refine ⟨hafter, ?_⟩
  rw [blocksOf_eq hwhole.types, blocksOf_eq hafter.types]
  exact step_remove_found hwhole.unique hlast

/-- **An operation that creates no block under a key that is cut** is one on the map. -/
theorem registryApply_spec (hwhole : StoredWhole entries) {op : BlockOp}
    (hzero : ∀ key manifest, op = .put key manifest → 0 ∉ key.1 ∧ 0 ∉ key.2)
    (hshort : ¬ CreatesLong entries op) : IsMapStep entries op := by
  cases op with
  | remove key =>
    cases hfind : registryFind (key.1.take 127) key.2 entries with
    | some idx => exact registryApply_delete hwhole hfind
    | none =>
      have hnone : (blocksOf entries).get key = none := get_blocksOf_eq_none_iff.mpr hfind
      have happly : registryApply entries (.remove key) = (entries, .absent) := by
        dsimp only [registryApply, registryDelete]
        rw [hfind]
      rw [IsMapStep, happly, step_remove_of_none hnone]
      exact ⟨hwhole, rfl⟩
  | put key manifest =>
    cases hfind : registryFind (key.1.take 127) key.2 entries with
    | some idx => exact registryApply_update hwhole manifest hfind
    | none =>
      have hnone : (blocksOf entries).get key = none := get_blocksOf_eq_none_iff.mpr hfind
      by_cases hroom : entries.length < registryCap
      · have hfits : ¬ (127 ≤ key.1.length ∨ 64 ≤ key.2.length) := by
          intro hlong
          refine hshort ⟨?_, hlong⟩
          rw [step_put_of_none hnone hroom]
        exact registryApply_create manifest hfind hroom (hzero key manifest rfl) hwhole (by omega)
      · have happly : registryApply entries (.put key manifest) = (entries, .full) := by
          dsimp only [registryApply, registryUpsert]
          rw [hfind]
          dsimp only
          rw [if_pos (Nat.not_lt.mp hroom)]
        rw [IsMapStep, happly, step_put_of_full hnone (Nat.not_lt.mp hroom)]
        exact ⟨hwhole, rfl⟩

/-- **An operation that does is not.** -/
theorem registryApply_long (hwhole : StoredWhole entries) {op : BlockOp}
    (hzero : ∀ key manifest, op = .put key manifest → 0 ∉ key.1 ∧ 0 ∉ key.2) (hlong : CreatesLong entries op) :
    (step registryCap (blocksOf entries) op).1 ≠ blocksOf (registryApply entries op).1 := by
  cases op with
  | remove key => exact hlong.elim
  | put key manifest =>
    obtain ⟨hcreated, hlong⟩ := hlong
    -- only a key that is not found, in a table with room, is created
    have hnone : (blocksOf entries).get key = none := by
      cases hget : (blocksOf entries).get key with
      | none => rfl
      | some old =>
        rw [step_put_of_some hget] at hcreated
        exact absurd hcreated nofun
    have hroom : entries.length < registryCap := by
      by_contra hfull
      rw [step_put_of_full hnone (Nat.not_lt.mp hfull)] at hcreated
      exact absurd hcreated nofun
    exact registryApply_createLong manifest (get_blocksOf_eq_none_iff.mp hnone) hroom
      (hzero key manifest rfl) hwhole hlong

end Table

/-! ### Runs -/

/-- The lookups find what the operation, if there is one, has made of what they found before, and the client
is told what became of it. -/
def MapStep (r : HttpRecord) : Option BlockOp → Prop
  | none => r.after.registry = r.before.registry
  | some op => ∃ answer,
      step registryCap (blocksOf r.before.registry) op = (blocksOf r.after.registry, answer) ∧
        responses r.output = [blockResponse r.input.clock.answer op answer]

/-- **A connection acts on the registry as on a map**, and no two blocks have one key behind it. -/
structure ActsAsMap (h : Host) (r : HttpRecord) : Prop where
  unique : UniqueKeys BlockEntry.key r.after.registry
  step : MapStep r (registryCall h r.input r.before)

/-- The connection creates a block under a key that is not stored whole. -/
def CreatesLongBlock (h : Host) (r : HttpRecord) : Prop :=
  ∃ op, registryCall h r.input r.before = some op ∧ CreatesLong r.before.registry op

section Runs

variable {h : Host} {g : Gateway} {x : Exchange}

/-- The rest of the path of a request for the registry. -/
theorem routeOf_registry {method path rest : List UInt8} (hroute : routeOf method path = .registry rest) :
    rest = behind "/api/v1/registry/blocks/" path := by
  have hother : ∀ route : Route, (∀ rest, route ≠ .registry rest) → route = .registry rest →
      rest = behind "/api/v1/registry/blocks/" path := fun route hne heq => absurd heq (hne rest)
  revert hroute
  unfold routeOf
  dsimp only
  -- one condition of the chain after the other
  repeat
    refine iteInduction (motive := fun route : Route => route = .registry rest → _)
      (fun _ => ?_) (fun _ => ?_)
    · first
        | exact hother _ fun _ => Route.noConfusion
        | exact fun heq => (Route.registry.inj heq).symm
  exact hother _ fun _ => Route.noConfusion

/-- The segments of a path have no NUL. -/
theorem zero_notMem_registryCall {key : BlockKey} {manifest : List UInt8}
    (hcall : registryCall h x g = some (.put key manifest)) : 0 ∉ key.1 ∧ 0 ∉ key.2 := by
  unfold registryCall at hcall
  split at hcall
  · cases hcall
  · next rq hparse =>
      split at hcall
      · next rest hroute =>
          have hrest : 0 ∉ rest := by
            rw [routeOf_registry hroute]
            exact fun hmem => zero_notMem_path hparse (List.mem_of_mem_drop hmem)
          have hkey : key = (rest.takeWhile (· != 47), (rest.dropWhile (· != 47)).drop 1) := by
            unfold branchCall requestedOp at hcall
            dsimp only at hcall
            split_ifs at hcall
            · cases hcall
            split at hcall
            · cases hcall
            · split_ifs at hcall
              obtain ⟨text, -, hop⟩ := Option.map_eq_some_iff.mp hcall
              exact (Op.put.inj hop).1.symm
          rw [hkey]
          refine ⟨fun hmem => hrest ((List.takeWhile_sublist _).mem hmem), fun hmem => hrest ?_⟩
          exact (List.dropWhile_sublist _).mem (List.mem_of_mem_drop hmem)
      · cases hcall

/-- In the registry of the gateway every block is under its own key. -/
def RegistryWhole (g : Gateway) : Prop := StoredWhole g.registry

/-- **One connection**, on a table in which every block is under its own key. -/
theorem actsAsMap_iff (hwhole : RegistryWhole g) :
    (ActsAsMap h (recordOf (httpStep h) g x) ↔ ¬ CreatesLongBlock h (recordOf (httpStep h) g x)) ∧
      (¬ CreatesLongBlock h (recordOf (httpStep h) g x) → RegistryWhole (httpStep h g x).1) := by
  have hperforms := httpStep_performs h g x
  cases hcall : registryCall h x g with
  | none =>
    rw [hcall] at hperforms
    have hkept : (httpStep h g x).1.registry = g.registry := hperforms
    have hshort : ¬ CreatesLongBlock h (recordOf (httpStep h) g x) := by
      rintro ⟨op, hop, -⟩
      exact absurd (hcall.symm.trans hop) nofun
    have hafter : StoredWhole (httpStep h g x).1.registry := hkept.symm ▸ hwhole
    refine ⟨iff_of_true ⟨hafter.unique, ?_⟩ hshort, fun _ => hafter⟩
    show MapStep _ (registryCall h x g)
    rw [hcall]
    exact hkept
  | some op =>
    rw [hcall] at hperforms
    obtain ⟨hregistry, hresponses⟩ := hperforms
    have hzero : ∀ key manifest, op = .put key manifest → 0 ∉ key.1 ∧ 0 ∉ key.2 := by
      rintro key manifest rfl
      exact zero_notMem_registryCall hcall
    have hlong : CreatesLongBlock h (recordOf (httpStep h) g x) ↔ CreatesLong g.registry op := by
      constructor
      · rintro ⟨op', hop', hlong⟩
        obtain rfl := Option.some.inj (hcall.symm.trans hop')
        exact hlong
      · exact fun hlong => ⟨op, hcall, hlong⟩
    have hshort : ¬ CreatesLong g.registry op → ActsAsMap h (recordOf (httpStep h) g x) ∧
        StoredWhole (httpStep h g x).1.registry := by
      intro hshort
      obtain ⟨hafter, hstep⟩ := registryApply_spec hwhole hzero hshort
      dsimp only at hregistry
      rw [← hregistry] at hafter hstep
      refine ⟨⟨hafter.unique, ?_⟩, hafter⟩
      show MapStep _ (registryCall h x g)
      rw [hcall]
      exact ⟨_, hstep, hresponses⟩
    rw [hlong]
    refine ⟨⟨?_, fun h => (hshort h).1⟩, fun h => (hshort h).2⟩
    rintro ⟨-, hstep⟩ hcreates
    change MapStep _ (registryCall h x g) at hstep
    rw [hcall] at hstep
    obtain ⟨answer, hstep, -⟩ := hstep
    refine registryApply_long hwhole hzero hcreates ?_
    dsimp only at hregistry
    rw [← hregistry]
    exact congrArg Prod.fst hstep

end Runs

/-- **The registry over a run.** From a gateway without blocks on, every connection acted on the registry as
on a map with room for 64 blocks, if and only if none created a block with a type of 127 bytes or more, or
with a version of 64 bytes or more. -/
theorem registry_map_iff (h : Host) (g₀ : Gateway) (hempty : g₀.registry = []) (past : List HttpRecord)
    (g : Gateway) (run : Run (httpStep h) g₀ past g) :
    (∀ r ∈ past, ActsAsMap h r) ↔ ∀ r ∈ past, ¬ CreatesLongBlock h r := by
  have hstart : RegistryWhole g₀ := by
    rw [RegistryWhole, hempty]
    exact ⟨List.nodup_nil, nofun⟩
  refine run.forall_iff hstart ?_ ?_
  · intro past g x _ hwhole hacts
    exact (actsAsMap_iff hwhole).2 ((actsAsMap_iff hwhole).1.mp hacts)
  · intro past g x _ hwhole
    exact (actsAsMap_iff hwhole).1

/-- The manifest of a block that does nothing. -/
def blockMembers (key : BlockKey) : Members :=
  [(ascii "type", .string key.1), (ascii "version", .string key.2),
   (ascii "schema", .object [(ascii "input", .object []), (ascii "output", .object [])])]

/-- Its text. -/
def blockText (key : BlockKey) : List UInt8 :=
  (Json.object (blockMembers key)).compact fun _ => ascii "0.0"

/-- A host that can read the manifest of this block. -/
def blockHost (key : BlockKey) : Host := .ofTables [] [(blockText key, .object (blockMembers key))]

/-- A write of this block. -/
def putBlock (key : BlockKey) : Exchange :=
  .delivering (ascii "PUT /api/v1/registry/blocks/" ++ key.1 ++ ascii "/" ++ key.2 ++
    ascii " HTTP/1.1\r\n\r\n" ++ blockText key) none

/-- A block with a short key is stored, and the registry is a map. -/
theorem registry_map_short_key :
    let key : BlockKey := (ascii "chat", ascii "1.0")
    let run := exec (httpStep (blockHost key)) (Gateway.atStart 900) [putBlock key]
    run.2.registry = [⟨key.1, key.2, blockText key⟩] ∧ ∀ r ∈ run.1, ActsAsMap (blockHost key) r := by
  intro key run
  refine ⟨by decide, ?_⟩
  refine (registry_map_iff (blockHost key) (Gateway.atStart 900) rfl _ _ (run_exec _ _ _)).mpr ?_
  intro r hr
  obtain rfl := List.mem_singleton.mp hr
  rintro ⟨op, hcall, hlong⟩
  have hop : registryCall (blockHost key) (putBlock key) (Gateway.atStart 900) =
      some (.put key (blockText key)) := by
    decide
  obtain rfl := Option.some.inj (hop.symm.trans hcall)
  exact absurd hlong.2 (by decide)

/-- **A block that is created twice.** Its version has 64 bytes, of which 63 are stored. -/
theorem registry_long_version :
    let key : BlockKey := (ascii "chat", List.replicate 64 49)
    let run := exec (httpStep (blockHost key)) (Gateway.atStart 900) [putBlock key, putBlock key]
    run.1.map (fun r => (responses r.output).map (·.status)) = [[.created], [.created]] ∧
      run.2.registry.map BlockEntry.key =
        [(ascii "chat", List.replicate 63 49), (ascii "chat", List.replicate 63 49)] := by
  decide +kernel

end CGateway
