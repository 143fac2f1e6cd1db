import Mathlib.Algebra.Order.Ring.Int
import CGateway.Lib.LinkedList
import CGateway.Lib.Machine
import CGateway.Lib.Slots

/-! # The buffer pool

`buffer_pool.c`: a fixed array of entries, each with a buffer, a flag and a link; the free entries are
threaded into a list through their links. A pointer to an entry or to its buffer is the entry's index.
The two statistics counters are of type `uint64_t` and wrap; `available` is a `size_t`. The data of the
buffers and the mutex play no part.

* `bufferPoolCreate`, `bufferPoolAcquire`, `bufferPoolRelease` — the operations;
* `bufferStep` — the pool and the clients that hold its buffers;
* `Represents` — the free list consists of the free entries, and the counters agree;
* `bufferPool_representation` — that holds after every run, misuse included. -/

namespace CGateway

open Machine Slots LinkedList

/-! ### The pool -/

/-- `pool_entry_t`: the size that the buffer reports, and the entry's own fields. -/
structure PoolEntry where
  size : ℕ
  capacity : ℕ
  inUse : Bool
  next : Option ℕ
  deriving DecidableEq, Repr

/-- `buffer_pool_t`. -/
structure BufferPool where
  bufferSize : ℕ
  poolSize : ℕ
  entries : List PoolEntry
  freeList : Option ℕ
  acquisitions : ℕ
  releases : ℕ
  available : ℕ
  deriving DecidableEq, Repr

/-- `buffer_pool_config_t`. -/
structure BufferPoolConfig where
  bufferSize : ℕ
  poolSize : ℕ
  deriving DecidableEq, Repr

/-- The difference of two values of type `uint64_t`. -/
def uint64Sub (a b : ℕ) : ℕ := (a + 2 ^ 64 - b) % 2 ^ 64

/-- An entry as `calloc` leaves it. -/
def PoolEntry.blank : PoolEntry := ⟨0, 0, false, none⟩

/-- The pool before its entries are initialised. -/
def BufferPool.allocated (config : BufferPoolConfig) : BufferPool where
  bufferSize := config.bufferSize
  poolSize := config.poolSize
  entries := List.replicate config.poolSize .blank
  freeList := none
  acquisitions := 0
  releases := 0
  available := config.poolSize

/-- One turn of the loop that puts the entries into the free list. -/
def initEntry (pool : BufferPool) (i : ℕ) : BufferPool :=
  { pool with
    entries := pool.entries.set i ⟨0, pool.bufferSize, false, pool.freeList⟩
    freeList := some i }

/-- `buffer_pool_create`; `memory` says whether all allocations return memory. -/
def bufferPoolCreate (memory : Bool) (config : BufferPoolConfig) : Option BufferPool :=
  if config.bufferSize = 0 ∨ config.poolSize = 0 then none
  else if memory then
    some ((List.range config.poolSize).foldl initEntry (BufferPool.allocated config))
  else none

/-- The link of an entry. -/
def BufferPool.link (pool : BufferPool) (i : ℕ) : Option ℕ := (pool.entries[i]?).bind (·.next)

/-- `buffer_pool_acquire`: the pool, and the buffer or `NULL`. -/
def bufferPoolAcquire (pool : BufferPool) : BufferPool × Option ℕ :=
  match pool.freeList with
  | none => (pool, none)
  | some i =>
      ({ pool with
          freeList := pool.link i
          entries := pool.entries.modify i fun e => { e with inUse := true, size := 0 }
          available := pool.available - 1
          acquisitions := (pool.acquisitions + 1) % 2 ^ 64 }, some i)

/-- The entry is marked as in use. -/
def BufferPool.isInUse (pool : BufferPool) (i : ℕ) : Bool := (pool.entries[i]?).any (·.inUse)

/-- `buffer_pool_release`: `NULL` and buffers that are free already are ignored. -/
def bufferPoolRelease (buffer : Option ℕ) (pool : BufferPool) : BufferPool :=
  match buffer with
  | none => pool
  | some i =>
      if pool.isInUse i then
        { pool with
          entries := pool.entries.modify i fun e =>
            { e with size := 0, inUse := false, next := pool.freeList }
          freeList := some i
          available := pool.available + 1
          releases := (pool.releases + 1) % 2 ^ 64 }
      else pool

/-! ### The pool and its clients -/

/-- A buffer that a client holds. -/
structure HeldBuffer (ι : Type) where
  client : ι
  buffer : ℕ
  deriving DecidableEq, Repr

/-- The pool and the buffers that clients hold. -/
structure BufferSystem (ι : Type) where
  pool : BufferPool
  held : List (HeldBuffer ι)
  deriving DecidableEq, Repr

/-- A call of a client, or a write to the size of a buffer, which is the client's to set. -/
inductive BufferCall (ι : Type) where
  | acquire (client : ι)
  | release (client : ι) (buffer : Option ℕ)
  | setSize (buffer size : ℕ)
  deriving DecidableEq, Repr

/-- A client writes the size of a buffer. -/
def BufferPool.setSize (buffer size : ℕ) (pool : BufferPool) : BufferPool :=
  { pool with entries := pool.entries.modify buffer fun e => { e with size := size } }

/-- One step: any client may release any buffer of the pool, its own or not. -/
def bufferStep {ι : Type} [DecidableEq ι] (s : BufferSystem ι) :
    BufferCall ι → BufferSystem ι × Option ℕ
  | .acquire client =>
      match bufferPoolAcquire s.pool with
      | (pool, none) => (⟨pool, s.held⟩, none)
      | (pool, some i) => (⟨pool, ⟨client, i⟩ :: s.held⟩, some i)
  | .release _ none => (⟨bufferPoolRelease none s.pool, s.held⟩, none)
  | .release client (some i) => (⟨bufferPoolRelease (some i) s.pool, s.held.erase ⟨client, i⟩⟩, none)
  | .setSize buffer size => (⟨s.pool.setSize buffer size, s.held⟩, none)

/-- The client releases a buffer that it holds. -/
def ReleasesOwn {ι : Type} (s : BufferSystem ι) : BufferCall ι → Prop
  | .release client (some i) => ⟨client, i⟩ ∈ s.held
  | _ => True

/-! ### The representation -/

/-- The free list ends and consists of the free entries, which `available` counts; the counters of
acquisitions and releases differ by the number of the others. -/
structure Represents (pool : BufferPool) (free : List ℕ) : Prop where
  length_eq : pool.entries.length = pool.poolSize
  linked : Linked pool.link pool.freeList free
  free_iff : ∀ i, i ∈ free ↔ ∃ e, pool.entries[i]? = some e ∧ e.inUse = false
  available_eq : pool.available = free.length
  fits : pool.poolSize < 2 ^ 64
  counters : pool.acquisitions < 2 ^ 64 ∧ pool.releases < 2 ^ 64
  balance : pool.available + uint64Sub pool.acquisitions pool.releases = pool.poolSize

section Representation

variable {pool : BufferPool} {free : List ℕ}

variable {i : ℕ} {e : PoolEntry}

/-- An entry is free or in use. -/
theorem isInUse_iff (h : pool.entries[i]? = some e) : pool.isInUse i = e.inUse := by
  rw [BufferPool.isInUse, h]
  rfl

/-- Links after a write to one entry that keeps its link. -/
theorem link_modify {pool' : BufferPool} {f : PoolEntry → PoolEntry}
    (h : pool'.entries = pool.entries.modify i f) (hf : ∀ e, (f e).next = e.next) (j : ℕ) :
    pool'.link j = pool.link j := by
  rw [BufferPool.link, BufferPool.link, h, List.getElem?_modify]
  cases pool.entries[j]? with
  | none => rfl
  | some e =>
    show (if i = j then f e else e).next = e.next
    split
    · exact hf e
    · rfl

/-- One more acquisition, one buffer less. -/
theorem balance_acquire {a r k n : ℕ} (ha : a < 2 ^ 64) (hr : r < 2 ^ 64) (hn : n < 2 ^ 64)
    (h : k + 1 + uint64Sub a r = n) : k + uint64Sub ((a + 1) % 2 ^ 64) r = n := by
  rw [uint64Sub] at h ⊢
  omega

/-- One more release, one buffer more. -/
theorem balance_release {a r k n : ℕ} (hk : k < n) (h : k + uint64Sub a r = n) :
    k + 1 + uint64Sub a ((r + 1) % 2 ^ 64) = n := by
  rw [uint64Sub] at h ⊢
  omega

/-- A release of a buffer that is free, or of none at all, does nothing. -/
theorem bufferPoolRelease_free (h : pool.isInUse i = false) : bufferPoolRelease (some i) pool = pool := by
  rw [bufferPoolRelease, h]
  rfl

/-- An empty free list: nothing happens. -/
theorem bufferPoolAcquire_none (h : pool.freeList = none) : bufferPoolAcquire pool = (pool, none) := by
  rw [bufferPoolAcquire, h]

/-- The buffer that is handed out is the first of the free list. -/
theorem bufferPoolAcquire_some (h : (bufferPoolAcquire pool).2 = some i) : pool.freeList = some i := by
  cases hhead : pool.freeList with
  | none =>
    rw [bufferPoolAcquire_none hhead] at h
    cases h
  | some j =>
    rw [bufferPoolAcquire, hhead] at h
    exact h

variable (rep : Represents pool free)
include rep

/-- An entry in use is not in the free list. -/
theorem Represents.notMem_of_inUse (hentry : pool.entries[i]? = some e) (huse : e.inUse = true) : i ∉ free := by
  intro hmem
  obtain ⟨e', he', hfree⟩ := (rep.free_iff i).mp hmem
  rw [hentry, Option.some.injEq] at he'
  rw [← he', huse] at hfree
  cases hfree

/-- The free entries are fewer than all, where one is in use. -/
theorem Represents.available_lt (hentry : pool.entries[i]? = some e) (huse : e.inUse = true) :
    pool.available < pool.poolSize := by
  have hnotMem := rep.notMem_of_inUse hentry huse
  -- The free entries and this one are different indices below the size.
  have hsubset : (i :: free) ⊆ List.range pool.poolSize := by
    have hlt : ∀ j e, pool.entries[j]? = some e → j < pool.poolSize := by
      intro j e he
      rw [← rep.length_eq]
      exact (List.getElem?_eq_some_iff.mp he).1
    intro j hj
    rw [List.mem_range]
    rcases List.mem_cons.mp hj with rfl | hj
    · exact hlt _ e hentry
    · obtain ⟨e', he', _⟩ := (rep.free_iff j).mp hj
      exact hlt j e' he'
  have hle := (List.subperm_of_subset (List.nodup_cons.mpr ⟨hnotMem, rep.linked.nodup⟩) hsubset).length_le
  rw [List.length_cons, List.length_range, ← rep.available_eq] at hle
  exact hle

/-- The first buffer of the free list is free. -/
theorem Represents.head (hhead : pool.freeList = some i) :
    ∃ rest e, free = i :: rest ∧ Linked pool.link (pool.link i) rest ∧ pool.entries[i]? = some e ∧ e.inUse = false := by
  have hlinked := rep.linked
  rw [hhead] at hlinked
  obtain ⟨rest, rfl, hrest⟩ := hlinked.pop
  obtain ⟨e, he, hfree⟩ := (rep.free_iff i).mp List.mem_cons_self
  exact ⟨rest, e, rfl, hrest, he, hfree⟩

/-- Taking the first buffer of the free list. -/
theorem Represents.acquire (hhead : pool.freeList = some i) :
    ∃ rest, free = i :: rest ∧ Represents (bufferPoolAcquire pool).1 rest := by
  obtain ⟨rest, _, rfl, hrest, _, _⟩ := rep.head hhead
  have hnodup := List.nodup_cons.mp rep.linked.nodup
  have havailable := rep.available_eq
  rw [List.length_cons] at havailable
  have hbalance := rep.balance
  refine ⟨rest, rfl, ?_⟩
  rw [bufferPoolAcquire, hhead]
  refine ⟨?_, ?_, fun j => ?_, ?_, rep.fits, ⟨Nat.mod_lt _ (by decide), rep.counters.2⟩, ?_⟩
  · dsimp only
    rw [List.length_modify, rep.length_eq]
  · exact hrest.congr fun j _ => link_modify rfl (by intro _; rfl) j
  · -- The buffer leaves the list as it goes into use: it does not occur a second time.
    dsimp only
    rw [exists_modify_iff]
    by_cases hij : i = j
    · subst hij
      simp [hnodup.1]
    · have hiff := rep.free_iff j
      rw [List.mem_cons, or_iff_right (Ne.symm hij)] at hiff
      simp only [if_neg hij]
      exact hiff
  · dsimp only
    omega
  · dsimp only
    refine balance_acquire rep.counters.1 rep.counters.2 rep.fits ?_
    omega

/-- Putting a buffer that is in use back. -/
theorem Represents.release (huse : pool.isInUse i = true) :
    Represents (bufferPoolRelease (some i) pool) (i :: free) := by
  obtain ⟨e, hentry⟩ : ∃ e, pool.entries[i]? = some e := by
    rw [BufferPool.isInUse] at huse
    cases hentry : pool.entries[i]? with
    | none =>
      rw [hentry] at huse
      cases huse
    | some e => exact ⟨e, rfl⟩
  rw [isInUse_iff hentry] at huse
  have hlt := rep.available_lt hentry huse
  have hnotMem := rep.notMem_of_inUse hentry huse
  rw [bufferPoolRelease, isInUse_iff hentry, if_pos huse]
  refine ⟨?_, ?_, fun j => ?_, ?_, rep.fits, ⟨rep.counters.1, Nat.mod_lt _ (by decide)⟩, ?_⟩
  · dsimp only
    rw [List.length_modify, rep.length_eq]
  · -- Only the link of the entry itself is written, and it is not in the list yet.
    refine rep.linked.push ?_ fun j hj => ?_
    · rw [BufferPool.link]
      dsimp only
      rw [getElem?_modify_self _ hentry]
      rfl
    · rw [BufferPool.link]
      dsimp only
      have hne : i ≠ j := by
        rintro rfl
        exact hnotMem hj
      rw [List.getElem?_modify_ne _ _ hne, BufferPool.link]
  · dsimp only
    rw [exists_modify_iff, List.mem_cons]
    by_cases hij : i = j
    · subst hij
      simp [hentry]
    · rw [or_iff_right (Ne.symm hij)]
      simp only [if_neg hij]
      exact rep.free_iff j
  · dsimp only
    rw [rep.available_eq, List.length_cons]
  · exact balance_release hlt rep.balance

/-- Setting a size changes nothing of it. -/
theorem Represents.setSize (i size : ℕ) : Represents (pool.setSize i size) free := by
  refine ⟨?_, ?_, fun j => ?_, rep.available_eq, rep.fits, rep.counters, rep.balance⟩
  · rw [BufferPool.setSize, List.length_modify, rep.length_eq]
  · exact rep.linked.congr fun j _ => link_modify rfl (by intro _; rfl) j
  · rw [rep.free_iff, BufferPool.setSize, exists_modify_iff]
    refine exists_congr fun e => and_congr_right fun _ => ?_
    split <;> rfl

/-- There is no buffer to hand out exactly where all entries are in use. -/
theorem Represents.acquire_eq_none_iff : (bufferPoolAcquire pool).2 = none ↔ ∀ e ∈ pool.entries, e.inUse = true := by
  cases hhead : pool.freeList with
  | none =>
    rw [bufferPoolAcquire_none hhead]
    refine ⟨fun _ e he => ?_, fun _ => rfl⟩
    have hlinked := rep.linked
    rw [hhead] at hlinked
    obtain ⟨i, hi⟩ := List.mem_iff_getElem?.mp he
    -- A free entry would be in the list.
    by_contra hfree
    have hmem := (rep.free_iff i).mpr ⟨e, hi, by simpa using hfree⟩
    rw [hlinked.eq_nil] at hmem
    cases hmem
  | some i =>
    obtain ⟨_, e, _, _, he, hfree⟩ := rep.head hhead
    rw [bufferPoolAcquire, hhead]
    refine ⟨nofun, fun hall => ?_⟩
    rw [hall e (List.mem_of_getElem? he)] at hfree
    cases hfree

/-- The buffer that is handed out was free; afterwards it is in use, with size 0. -/
theorem Represents.acquire_entry (h : (bufferPoolAcquire pool).2 = some i) :
    pool.isInUse i = false ∧ ∃ e, (bufferPoolAcquire pool).1.entries[i]? = some e ∧ e.size = 0 ∧ e.inUse = true := by
  have hhead := bufferPoolAcquire_some h
  obtain ⟨_, e, _, _, he, hfree⟩ := rep.head hhead
  refine ⟨by rw [isInUse_iff he, hfree], { e with inUse := true, size := 0 }, ?_, rfl, rfl⟩
  rw [bufferPoolAcquire, hhead]
  exact getElem?_modify_self _ he

end Representation

/-! ### Creation -/

/-- The loop has put the first `n` entries into the free list, the last of them first. -/
theorem foldl_initEntry (config : BufferPoolConfig) {n : ℕ} (hn : n ≤ config.poolSize) :
    ∃ pool, (List.range n).foldl initEntry (BufferPool.allocated config) = pool ∧
      pool.entries.length = config.poolSize ∧ pool.poolSize = config.poolSize ∧
      pool.available = config.poolSize ∧ pool.acquisitions = 0 ∧ pool.releases = 0 ∧
      (∀ e ∈ pool.entries, e.inUse = false) ∧ Linked pool.link pool.freeList (List.range n).reverse := by
  induction n with
  | zero =>
    refine ⟨_, rfl, List.length_replicate, rfl, rfl, rfl, rfl, fun e he => ?_, .nil⟩
    rw [List.eq_of_mem_replicate he]
    rfl
  | succ n ih =>
    obtain ⟨pool, hpool, hlength, hsize, havailable, hacq, hrel, hfree, hlinked⟩ := ih (by omega)
    refine ⟨initEntry pool n, ?_, ?_, hsize, havailable, hacq, hrel, fun e he => ?_, ?_⟩
    · rw [List.range_succ, List.foldl_append, hpool]
      rfl
    · rw [initEntry, List.length_set, hlength]
    · rcases List.mem_or_eq_of_mem_set he with he | rfl
      · exact hfree e he
      · rfl
    · rw [List.range_succ, List.reverse_append]
      refine hlinked.push ?_ fun j hj => ?_
      · rw [BufferPool.link, initEntry]
        dsimp only
        rw [List.getElem?_set_self (by omega)]
        rfl
      · have hlt := List.mem_range.mp (List.mem_reverse.mp hj)
        rw [BufferPool.link, initEntry]
        dsimp only
        rw [List.getElem?_set_ne (by omega), BufferPool.link]

/-- A new pool is well represented, with all entries free. -/
theorem bufferPoolCreate_represents {memory : Bool} {config : BufferPoolConfig} {pool : BufferPool}
    (h : bufferPoolCreate memory config = some pool) (hfits : config.poolSize < 2 ^ 64) :
    pool.poolSize = config.poolSize ∧ Represents pool (List.range config.poolSize).reverse := by
  rw [bufferPoolCreate] at h
  split at h
  · cases h
  · split at h
    · obtain ⟨pool', hpool, hlength, hsize, havailable, hacq, hrel, hfree, hlinked⟩ := foldl_initEntry config le_rfl
      rw [hpool] at h
      obtain rfl := Option.some.inj h
      refine ⟨hsize, by rw [hlength, hsize], hlinked, fun i => ?_, ?_, by rw [hsize]; exact hfits, ?_, ?_⟩
      · rw [List.mem_reverse, List.mem_range, ← hlength]
        refine ⟨fun hi => ⟨_, List.getElem?_eq_getElem hi, hfree _ (List.getElem_mem hi)⟩, ?_⟩
        rintro ⟨e, he, _⟩
        exact (List.getElem?_eq_some_iff.mp he).1
      · rw [havailable, List.length_reverse, List.length_range]
      · rw [hacq, hrel]
        decide
      · rw [havailable, hacq, hrel, hsize]
        rfl
    · cases h

/-! ### Runs -/

section Runs

variable {ι : Type} [DecidableEq ι]

variable {s : BufferSystem ι} {free : List ℕ}

/-- Every step, misuse included, leaves the pool well represented and of the same size. -/
theorem represents_step (rep : Represents s.pool free) (call : BufferCall ι) :
    ∃ free', Represents (bufferStep s call).1.pool free' ∧ (bufferStep s call).1.pool.poolSize = s.pool.poolSize := by
  cases call with
  | acquire client =>
    cases hhead : s.pool.freeList with
    | none =>
      rw [bufferStep, bufferPoolAcquire_none hhead]
      exact ⟨free, rep, rfl⟩
    | some i =>
      obtain ⟨rest, _, hrest⟩ := rep.acquire hhead
      have hacquire : bufferPoolAcquire s.pool = ((bufferPoolAcquire s.pool).1, some i) := by
        rw [bufferPoolAcquire, hhead]
      refine ⟨rest, ?_, ?_⟩
      · rw [bufferStep, hacquire]
        exact hrest
      · rw [bufferStep, bufferPoolAcquire, hhead]
  | release client buffer =>
    cases buffer with
    | none => exact ⟨free, rep, rfl⟩
    | some i =>
      rw [bufferStep]
      cases huse : s.pool.isInUse i with
      | false =>
        rw [bufferPoolRelease_free huse]
        exact ⟨free, rep, rfl⟩
      | true =>
        refine ⟨i :: free, rep.release huse, ?_⟩
        rw [bufferPoolRelease, huse]
        rfl
  | setSize buffer size => exact ⟨free, rep.setSize buffer size, rfl⟩

/-- No buffer is held twice, and what is held is in use. -/
structure Exclusive (s : BufferSystem ι) : Prop where
  nodup : (s.held.map (·.buffer)).Nodup
  inUse : ∀ h ∈ s.held, s.pool.isInUse h.buffer = true

omit [DecidableEq ι] in
/-- The flags of the other entries after a write to one. -/
theorem isInUse_modify_ne {pool pool' : BufferPool} {i : ℕ} {f : PoolEntry → PoolEntry}
    (h : pool'.entries = pool.entries.modify i f) {j : ℕ} (hne : i ≠ j) : pool'.isInUse j = pool.isInUse j := by
  rw [BufferPool.isInUse, BufferPool.isInUse, h, List.getElem?_modify_ne _ _ hne]

/-- Handing out a buffer keeps holders apart. -/
theorem Exclusive.acquire (rep : Represents s.pool free) (excl : Exclusive s) (client : ι) :
    Exclusive (bufferStep s (.acquire client)).1 := by
  rw [bufferStep]
  cases hacquire : bufferPoolAcquire s.pool with
  | mk pool buffer =>
    cases buffer with
    | none =>
      have hhead : s.pool.freeList = none := by
        cases hhead : s.pool.freeList with
        | none => rfl
        | some i =>
          rw [bufferPoolAcquire, hhead] at hacquire
          cases hacquire
      rw [bufferPoolAcquire_none hhead] at hacquire
      obtain ⟨rfl, _⟩ := Prod.mk.inj hacquire
      exact excl
    | some i =>
      have hsome : (bufferPoolAcquire s.pool).2 = some i := by rw [hacquire]
      obtain ⟨hfree, e, he, _, huse⟩ := rep.acquire_entry hsome
      have hentries : pool.entries = s.pool.entries.modify i fun e => { e with inUse := true, size := 0 } := by
        rw [bufferPoolAcquire, bufferPoolAcquire_some hsome] at hacquire
        obtain ⟨rfl, _⟩ := Prod.mk.inj hacquire
        rfl
      -- The buffer was free, so nobody holds it.
      have hnew : ∀ h ∈ s.held, h.buffer ≠ i := by
        rintro h hh rfl
        rw [excl.inUse h hh] at hfree
        cases hfree
      rw [hacquire] at he
      refine ⟨nodup_map_cons excl.nodup hnew, fun h hh => ?_⟩
      rcases List.mem_cons.mp hh with rfl | hh
      · rw [isInUse_iff he, huse]
      · rw [isInUse_modify_ne hentries (hnew h hh).symm]
        exact excl.inUse h hh

/-- Taking back a buffer from its holder keeps the others apart. -/
theorem Exclusive.release (excl : Exclusive s) {client : ι} {i : ℕ} (hown : ⟨client, i⟩ ∈ s.held) :
    Exclusive (bufferStep s (.release client (some i))).1 := by
  obtain ⟨hnodup, hothers⟩ := nodup_map_erase excl.nodup hown
  refine ⟨hnodup, fun h hh => ?_⟩
  have hne : i ≠ h.buffer := hothers h hh
  have huse := excl.inUse h (List.mem_of_mem_erase hh)
  rw [bufferStep]
  dsimp only
  rw [bufferPoolRelease]
  split
  · rw [← huse]
    exact isInUse_modify_ne rfl hne
  · exact huse

/-- A step by clients that release what they hold. -/
theorem Exclusive.step (rep : Represents s.pool free) (excl : Exclusive s) {call : BufferCall ι}
    (hown : ReleasesOwn s call) : Exclusive (bufferStep s call).1 := by
  cases call with
  | acquire client => exact excl.acquire rep client
  | release client buffer =>
    cases buffer with
    | none => exact excl
    | some i => exact excl.release hown
  | setSize buffer size =>
    refine ⟨excl.nodup, fun h hh => ?_⟩
    have huse := excl.inUse h hh
    rw [BufferPool.isInUse] at huse ⊢
    show ((s.pool.entries.modify buffer _)[h.buffer]?).any _ = true
    rw [List.getElem?_modify]
    cases hentry : s.pool.entries[h.buffer]? with
    | none =>
      rw [hentry] at huse
      cases huse
    | some e =>
      rw [hentry] at huse
      show (if buffer = h.buffer then { e with size := size } else e).inUse = true
      split <;> exact huse

end Runs

/-- The representation as the interface shows it. -/
structure BufferPoolLaw (config : BufferPoolConfig) (pool : BufferPool) : Prop where
  /-- The free list is finite, without repetition, and consists of the free entries. -/
  freeList : ∃ free, Linked pool.link pool.freeList free ∧ free.Nodup ∧
    (∀ i, i ∈ free ↔ ∃ e, pool.entries[i]? = some e ∧ e.inUse = false) ∧
    pool.available = free.length
  size : pool.entries.length = config.poolSize ∧ pool.poolSize = config.poolSize
  /-- `available` is `pool_size - (acquisitions - releases)`. -/
  balance : pool.available + uint64Sub pool.acquisitions pool.releases = config.poolSize
  /-- `buffer_pool_acquire` returns `NULL` exactly where all buffers are in use. -/
  exhausted : (bufferPoolAcquire pool).2 = none ↔ ∀ e ∈ pool.entries, e.inUse = true
  /-- An acquired buffer has size 0. -/
  acquired : ∀ i, (bufferPoolAcquire pool).2 = some i →
    ∃ e, (bufferPoolAcquire pool).1.entries[i]? = some e ∧ e.size = 0 ∧ e.inUse = true

/-- **The buffer pool.** After every run of calls on a pool, whoever releases whatever and how often:
the free list is a finite list without repetition of exactly the free entries, `available` is its length
and agrees with the counters, `acquire` fails exactly where all buffers are in use, and an acquired
buffer has size 0. Where clients release only what they hold, no two hold the same buffer. -/
theorem bufferPool_representation {ι : Type} [DecidableEq ι] (config : BufferPoolConfig) (memory : Bool)
    (pool : BufferPool) (hcreate : bufferPoolCreate memory config = some pool) (hfits : config.poolSize < 2 ^ 64)
    (past : List (Record (BufferSystem ι) (BufferCall ι) (Option ℕ))) (s : BufferSystem ι)
    (run : Run bufferStep ⟨pool, []⟩ past s) :
    BufferPoolLaw config s.pool ∧
      ((∀ r ∈ past, ReleasesOwn r.before r.input) → (s.held.map (·.buffer)).Nodup) := by
  have key : (∃ free, Represents s.pool free ∧ s.pool.poolSize = config.poolSize) ∧
      ((∀ r ∈ past, ReleasesOwn r.before r.input) → Exclusive s) := by
    induction run with
    | start =>
        obtain ⟨hsize, rep⟩ := bufferPoolCreate_represents hcreate hfits
        exact ⟨⟨_, rep, hsize⟩, fun _ => ⟨.nil, fun _ h => absurd h List.not_mem_nil⟩⟩
    | next run call ih =>
        obtain ⟨⟨free, rep, hsize⟩, hexcl⟩ := ih
        obtain ⟨free', rep', hsize'⟩ := represents_step rep call
        refine ⟨⟨free', rep', hsize'.trans hsize⟩, fun hown => ?_⟩
        rw [List.forall_mem_cons] at hown
        exact (hexcl hown.2).step rep hown.1
  obtain ⟨⟨free, rep, hsize⟩, hexcl⟩ := key
  refine ⟨⟨⟨free, rep.linked, rep.linked.nodup, rep.free_iff, rep.available_eq⟩,
    ⟨by rw [rep.length_eq, hsize], hsize⟩, by rw [rep.balance, hsize], rep.acquire_eq_none_iff,
    fun i h => (rep.acquire_entry h).2⟩, fun hown => (hexcl hown).nodup⟩

/-- A pool of two buffers, as it is created. -/
def twoBuffers : BufferPool where
  bufferSize := 16
  poolSize := 2
  entries := [⟨0, 16, false, none⟩, ⟨0, 16, false, some 0⟩]
  freeList := some 1
  acquisitions := 0
  releases := 0
  available := 2

/-- Two clients take both buffers; a third gets none; one buffer is written, released twice, and released
once more by a client that never had it. -/
def clumsyCalls : List (BufferCall ℕ) :=
  [.acquire 1, .acquire 2, .acquire 3, .setSize 1 9, .release 1 (some 1), .release 1 (some 1),
   .release 3 (some 1), .release 2 none]

/-- The pool after these calls: one buffer is free, and all is well represented. -/
theorem bufferPool_representation_clumsy :
    (exec bufferStep ⟨twoBuffers, []⟩ clumsyCalls).1.map (·.output) =
        [none, none, none, none, none, none, some 0, some 1] ∧
      (exec bufferStep ⟨twoBuffers, []⟩ clumsyCalls).2.pool.available = 1 ∧
      BufferPoolLaw ⟨16, 2⟩ (exec bufferStep ⟨twoBuffers, []⟩ clumsyCalls).2.pool :=
  ⟨by decide, by decide, (bufferPool_representation ⟨16, 2⟩ true twoBuffers (by decide) (by decide) _ _
    (run_exec bufferStep ⟨twoBuffers, []⟩ clumsyCalls)).1⟩

end CGateway
