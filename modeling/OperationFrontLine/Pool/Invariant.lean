import OperationFrontLine.Pool.ConnectionPool

/-!
# The pool's invariant

The deque and the set always hold the pool's connections between them, and
every connection lent and not yet returned is in the set, once.  A lent
connection is therefore never the one that `borrow` finds abandoned.
-/

namespace OperationFrontLine.Pool

open OperationFrontLine.Library

namespace ConnectionPool

@[simp]
theorem mem_setInsert {connection other : Connection} {set : List Connection} :
    other ∈ setInsert connection set ↔ other = connection ∨ other ∈ set := by
  unfold setInsert
  split <;> rename_i present
  · exact ⟨.inr, fun member => member.elim (fun same => same ▸ present) id⟩
  · exact List.mem_orderedInsert _

theorem setInsert_perm {connection : Connection} {set : List Connection}
    (fresh : connection ∉ set) : (setInsert connection set).Perm (connection :: set) := by
  rw [setInsert, if_neg fresh]
  exact List.perm_orderedInsert _ _ _

/-- The three outcomes of `borrow`: the front of the deque, a replacement for
an abandoned connection, or an error that leaves the pool alone. -/
theorem borrow_cases (this : ConnectionPool) (unique : Connection → Bool)
    (created : Option Connection) :
    (∃ connection rest, this.pool = connection :: rest ∧
      this.borrow unique created =
        (.ok connection,
          { this with pool := rest, borrowed := setInsert connection this.borrowed })) ∨
    (∃ abandoned connection, this.pool = [] ∧ abandoned ∈ this.borrowed ∧
      unique abandoned = true ∧ created = some connection ∧
      this.borrow unique created =
        (.ok connection,
          { this with
            borrowed := setInsert connection (this.borrowed.erase abandoned) })) ∨
    (∃ error, this.pool = [] ∧ this.borrow unique created = (.error error, this) ∧
      ((∀ connection ∈ this.borrowed, unique connection = false) ∨ created = none)) := by
  unfold borrow
  cases deque : this.pool with
  | cons connection rest => exact .inl ⟨connection, rest, rfl, rfl⟩
  | nil =>
      right
      cases found : this.borrowed.find? unique with
      | none =>
          refine .inr ⟨_, rfl, rfl, .inl fun connection member => ?_⟩
          simpa using List.find?_eq_none.mp found connection member
      | some abandoned =>
          cases created with
          | none => exact .inr ⟨_, rfl, rfl, .inr rfl⟩
          | some connection =>
              exact .inl ⟨abandoned, connection, rfl, List.mem_of_find?_eq_some found,
                List.find?_some found, rfl, rfl⟩

theorem fill_spec {create : ℕ → Option Connection} {missing : ℕ}
    {pool filled : List Connection}
    (distinct : ∀ i j connection, create i = some connection →
      create j = some connection → i = j)
    (drawn : ∀ connection ∈ pool, ∃ i < pool.length, create i = some connection)
    (nodup : pool.Nodup) (result : fill create missing pool = some filled) :
    filled.length = pool.length + missing ∧ filled.Nodup := by
  induction missing generalizing pool with
  | zero =>
      cases result
      exact ⟨rfl, nodup⟩
  | succ missing inductionHypothesis =>
      simp only [fill] at result
      cases created : create pool.length with
      | none => simp [created] at result
      | some connection =>
          simp only [created] at result
          have fresh : connection ∉ pool := by
            intro member
            obtain ⟨i, below, same⟩ := drawn connection member
            have := distinct _ _ _ same created
            omega
          have kept : filled.length = (pool ++ [connection]).length + missing ∧ filled.Nodup := by
            refine inductionHypothesis ?_ ?_ result
            · intro other member
              rw [List.length_append, List.length_singleton]
              rcases List.mem_append.mp member with old | new
              · obtain ⟨i, below, same⟩ := drawn other old
                exact ⟨i, by omega, same⟩
              · rw [List.mem_singleton.mp new]
                exact ⟨pool.length, by omega, created⟩
            · exact List.nodup_middle.mpr (by simpa using ⟨fresh, nodup⟩)
          rw [List.length_append, List.length_singleton] at kept
          exact ⟨by omega, kept.2⟩

end ConnectionPool

variable {Holder : Type}

namespace PoolWorld

theorem not_referenced_of_unique {world : PoolWorld Holder} {connection : Connection}
    (member : connection ∈ world.pool.borrowed)
    (unique : world.unique connection = true) :
    ∀ reference ∈ world.references, reference.connection ≠ connection := by
  have stored : 1 ≤ world.pool.borrowed.count connection := List.count_pos_iff.mpr member
  have counted : world.useCount connection = 1 := by simpa [PoolWorld.unique] using unique
  unfold useCount at counted
  have none_left : world.references.countP (·.connection = connection) = 0 := by omega
  intro reference present same
  exact List.countP_eq_zero.mp none_left reference present (by simpa using same)

theorem useCount_eq_zero {world : PoolWorld Holder} {connection : Connection} :
    world.useCount connection = 0 ↔
      connection ∉ world.pool.pool ∧ connection ∉ world.pool.borrowed ∧
        ∀ reference ∈ world.references, reference.connection ≠ connection := by
  simp [useCount, List.count_eq_zero, List.countP_eq_zero, and_assoc]

theorem mem_lent {world : PoolWorld Holder} {connection : Connection} :
    connection ∈ world.lent ↔ ∃ reference ∈ world.references,
      reference.returned = false ∧ reference.connection = connection := by
  simp [lent, and_assoc]

@[simp]
theorem lent_cons (pool : ConnectionPool) (reference : Reference Holder)
    (references : List (Reference Holder)) :
    (PoolWorld.mk pool (reference :: references)).lent =
      if reference.returned then (PoolWorld.mk pool references).lent
      else reference.connection :: (PoolWorld.mk pool references).lent := by
  cases returned : reference.returned <;> simp [lent, returned]

variable [DecidableEq Holder]

theorem lent_erase_perm {world : PoolWorld Holder} {holder : Holder}
    {connection : Connection} (pool : ConnectionPool)
    (present : ⟨holder, connection, false⟩ ∈ world.references) :
    world.lent.Perm (connection ::
      (PoolWorld.mk pool (world.references.erase ⟨holder, connection, false⟩)).lent) := by
  have split := ((List.perm_cons_erase present).filter (!·.returned)).map (·.connection)
  simpa [lent] using split

@[simp]
theorem lent_unborrow (world : PoolWorld Holder) (holder : Holder)
    (connection : Connection) :
    (world.unborrow holder connection).lent =
      (PoolWorld.mk (world.pool.unborrow connection)
        (world.references.erase ⟨holder, connection, false⟩)).lent := by
  simp [unborrow]

theorem lent_drop_sublist (world : PoolWorld Holder) (reference : Reference Holder) :
    (world.drop reference).lent.Sublist world.lent :=
  (List.erase_sublist.filter _).map _

end PoolWorld

structure PoolInvariant (world : PoolWorld Holder) : Prop where
  size : world.pool.pool.length + world.pool.borrowed.length = world.pool.poolSize
  poolNodup : world.pool.pool.Nodup
  borrowedNodup : world.pool.borrowed.Nodup
  disjoint : ∀ connection ∈ world.pool.pool, connection ∉ world.pool.borrowed
  lentBorrowed : ∀ connection ∈ world.lent, connection ∈ world.pool.borrowed
  lentNodup : world.lent.Nodup

namespace PoolInvariant

theorem initial (Holder : Type) {poolSize : ℕ} {create : ℕ → Option Connection}
    {pool : ConnectionPool}
    (distinct : ∀ i j connection, create i = some connection →
      create j = some connection → i = j)
    (constructed : ConnectionPool.construct poolSize create = some pool) :
    PoolInvariant (⟨pool, []⟩ : PoolWorld Holder) ∧ pool.poolSize = poolSize := by
  obtain ⟨connections, filled, rfl⟩ := Option.map_eq_some_iff.mp constructed
  have spec := ConnectionPool.fill_spec distinct (by simp) List.nodup_nil filled
  refine ⟨⟨?_, spec.2, List.nodup_nil, by simp, by simp [PoolWorld.lent],
    by simp [PoolWorld.lent]⟩, rfl⟩
  simpa using spec.1

/-- What a holder gets from `borrow`, and what `borrow` does to the rest. -/
structure Borrowed (world : PoolWorld Holder) (connection : Connection)
    (next : PoolWorld Holder) : Prop where
  invariant : PoolInvariant next
  poolSize : next.pool.poolSize = world.pool.poolSize
  notLent : connection ∉ world.lent
  referenced : ∀ reference ∈ world.references,
    reference.connection ∈ world.pool.borrowed → reference.connection ∈ next.pool.borrowed

variable {world : PoolWorld Holder}

theorem borrow (invariant : PoolInvariant world) (holder : Holder)
    {created : Option Connection}
    (fresh : ∀ connection ∈ created, world.useCount connection = 0) :
    match world.borrow holder created with
    | (.ok connection, next) => Borrowed world connection next
    | (.error _, next) => next = world := by
  unfold PoolWorld.borrow
  rcases world.pool.borrow_cases world.unique created with
    ⟨connection, rest, deque, result⟩ |
    ⟨abandoned, connection, deque, member, unique, rfl, result⟩ |
    ⟨error, deque, result, -⟩
  · simp only [result]
    have notBorrowed : connection ∉ world.pool.borrowed :=
      invariant.disjoint connection (by simp [deque])
    have inserted := ConnectionPool.setInsert_perm notBorrowed
    have notLent : connection ∉ world.lent :=
      fun lent => notBorrowed (invariant.lentBorrowed connection lent)
    have nodup := invariant.poolNodup
    have size := invariant.size
    rw [deque] at nodup size
    refine ⟨⟨?_, (List.nodup_cons.mp nodup).2, ?_, ?_, ?_, ?_⟩, rfl, notLent, ?_⟩
    · simp only [inserted.length_eq, List.length_cons] at size ⊢
      omega
    · exact inserted.nodup_iff.mpr (List.nodup_cons.mpr ⟨notBorrowed, invariant.borrowedNodup⟩)
    · intro other free lent
      rcases ConnectionPool.mem_setInsert.mp lent with rfl | borrowed
      · exact (List.nodup_cons.mp nodup).1 free
      · exact invariant.disjoint other (by simp [deque, free]) borrowed
    · intro other lent
      rcases List.mem_cons.mp (by simpa using lent) with rfl | old
      · exact ConnectionPool.mem_setInsert.mpr (.inl rfl)
      · exact ConnectionPool.mem_setInsert.mpr (.inr (invariant.lentBorrowed other old))
    · simpa using ⟨notLent, invariant.lentNodup⟩
    · exact fun reference _ borrowed => ConnectionPool.mem_setInsert.mpr (.inr borrowed)
  · simp only [result]
    obtain ⟨-, notBorrowed, notReferenced⟩ :=
      PoolWorld.useCount_eq_zero.mp (fresh connection rfl)
    have notErased : connection ∉ world.pool.borrowed.erase abandoned :=
      fun erased => notBorrowed (List.mem_of_mem_erase erased)
    have inserted := ConnectionPool.setInsert_perm notErased
    have dropped := PoolWorld.not_referenced_of_unique member unique
    have notLent : connection ∉ world.lent :=
      fun lent => notBorrowed (invariant.lentBorrowed connection lent)
    -- nobody references the abandoned connection, so what is referenced stays
    have kept : ∀ reference ∈ world.references,
        reference.connection ∈ world.pool.borrowed →
          reference.connection ∈
            ConnectionPool.setInsert connection (world.pool.borrowed.erase abandoned) :=
      fun reference present borrowed => ConnectionPool.mem_setInsert.mpr
        (.inr ((List.mem_erase_of_ne (dropped reference present)).mpr borrowed))
    refine ⟨⟨?_, invariant.poolNodup, ?_, by simp [deque], ?_, ?_⟩, rfl, notLent, kept⟩
    · have size := invariant.size
      have positive := List.length_pos_of_mem member
      simp only [inserted.length_eq, List.length_cons, List.length_erase_of_mem member]
      omega
    · exact inserted.nodup_iff.mpr
        (List.nodup_cons.mpr ⟨notErased, invariant.borrowedNodup.erase _⟩)
    · intro other lent
      rcases List.mem_cons.mp (by simpa using lent) with rfl | old
      · exact ConnectionPool.mem_setInsert.mpr (.inl rfl)
      · obtain ⟨reference, present, -, rfl⟩ := PoolWorld.mem_lent.mp old
        exact kept reference present (invariant.lentBorrowed _ old)
    · simpa using ⟨notLent, invariant.lentNodup⟩
  · simp only [result]

variable [DecidableEq Holder]

theorem unborrow (invariant : PoolInvariant world) {holder : Holder}
    {connection : Connection}
    (present : ⟨holder, connection, false⟩ ∈ world.references) :
    PoolInvariant (world.unborrow holder connection) := by
  have split := PoolWorld.lent_erase_perm (world.pool.unborrow connection) present
  have member : connection ∈ world.pool.borrowed :=
    invariant.lentBorrowed connection (split.mem_iff.mpr (by simp))
  have nodup := List.nodup_cons.mp (split.nodup_iff.mp invariant.lentNodup)
  have notFree : connection ∉ world.pool.pool :=
    fun free => invariant.disjoint connection free member
  have positive := List.length_pos_of_mem member
  have size := invariant.size
  refine ⟨?_, ?_, invariant.borrowedNodup.erase _, ?_, ?_, by simpa using nodup.2⟩
  · simp only [PoolWorld.unborrow, ConnectionPool.unborrow, List.length_append,
      List.length_singleton, List.length_erase_of_mem member]
    omega
  · exact List.nodup_middle.mpr (by simpa using ⟨notFree, invariant.poolNodup⟩)
  · intro other free borrowed
    have different := (invariant.borrowedNodup.mem_erase_iff.mp borrowed)
    rcases List.mem_append.mp free with old | new
    · exact invariant.disjoint other old different.2
    · exact different.1 (List.mem_singleton.mp new)
  · intro other lent
    have old : other ∈ (PoolWorld.mk (world.pool.unborrow connection)
        (world.references.erase ⟨holder, connection, false⟩)).lent := by simpa using lent
    have borrowed := invariant.lentBorrowed other (split.mem_iff.mpr (by simp [old]))
    exact invariant.borrowedNodup.mem_erase_iff.mpr
      ⟨fun same => nodup.1 (same ▸ old), borrowed⟩

theorem drop (invariant : PoolInvariant world) (reference : Reference Holder) :
    PoolInvariant (world.drop reference) :=
  have sublist := world.lent_drop_sublist reference
  { invariant with
    lentBorrowed := fun connection lent =>
      invariant.lentBorrowed connection (sublist.subset lent)
    lentNodup := invariant.lentNodup.sublist sublist }

theorem step (invariant : PoolInvariant world) {operation : PoolOperation Holder}
    {next : PoolWorld Holder} (stepped : poolStep world operation = some next) :
    PoolInvariant next ∧ next.pool.poolSize = world.pool.poolSize := by
  cases operation with
  | borrow holder created =>
      simp only [poolStep, Option.ite_none_right_eq_some, Option.some.injEq] at stepped
      obtain ⟨fresh, rfl⟩ := stepped
      have spec := invariant.borrow holder fresh
      cases result : world.borrow holder created with
      | mk outcome next =>
          cases outcome with
          | ok connection =>
              rw [result] at spec
              exact ⟨spec.invariant, spec.poolSize⟩
          | error error =>
              rw [result] at spec
              cases spec
              exact ⟨invariant, rfl⟩
  | unborrow holder connection =>
      simp only [poolStep, Option.ite_none_right_eq_some, Option.some.injEq] at stepped
      obtain ⟨present, rfl⟩ := stepped
      exact ⟨invariant.unborrow present, rfl⟩
  | drop reference =>
      simp only [poolStep, Option.ite_none_right_eq_some, Option.some.injEq] at stepped
      obtain ⟨-, rfl⟩ := stepped
      exact ⟨invariant.drop reference, rfl⟩

end PoolInvariant

/-- Whatever the holders do, the pool keeps its size, lends a connection to one
holder at a time, never replaces one that is still referenced and is left
alone by a `borrow` that throws. -/
theorem connectionPool_invariant [DecidableEq Holder] {poolSize : ℕ}
    {create : ℕ → Option Connection} {pool : ConnectionPool}
    (distinct : ∀ i j connection, create i = some connection →
      create j = some connection → i = j)
    (constructed : ConnectionPool.construct poolSize create = some pool)
    {operations : List (PoolOperation Holder)} {world : PoolWorld Holder}
    (ran : run poolStep ⟨pool, []⟩ operations = some world) :
    world.pool.pool.length + world.pool.borrowed.length = poolSize ∧
    world.pool.pool.Nodup ∧ world.pool.borrowed.Nodup ∧
    (∀ connection ∈ world.pool.pool, connection ∉ world.pool.borrowed) ∧
    world.lent.Nodup ∧
    ∀ (holder : Holder) (created : Option Connection),
      (∀ connection ∈ created, world.useCount connection = 0) →
      match world.borrow holder created with
      | (.ok connection, next) =>
          connection ∉ world.lent ∧
          ∀ reference ∈ world.references,
            reference.connection ∈ world.pool.borrowed →
              reference.connection ∈ next.pool.borrowed
      | (.error _, next) => next.pool = world.pool := by
  have start := PoolInvariant.initial Holder distinct constructed
  have reached := run_invariant
    (fun world : PoolWorld Holder => PoolInvariant world ∧ world.pool.poolSize = poolSize)
    (fun before operation after invariant stepped =>
      have next := invariant.1.step stepped
      ⟨next.1, next.2.trans invariant.2⟩)
    start ran
  obtain ⟨invariant, size⟩ := reached
  refine ⟨size ▸ invariant.size, invariant.poolNodup, invariant.borrowedNodup,
    invariant.disjoint, invariant.lentNodup, fun holder created fresh => ?_⟩
  have spec := invariant.borrow holder fresh
  cases result : world.borrow holder created with
  | mk outcome next =>
      cases outcome with
      | ok connection =>
          rw [result] at spec
          exact ⟨spec.notLent, spec.referenced⟩
      | error error =>
          rw [result] at spec
          exact congrArg PoolWorld.pool spec

/-- Two holders exhaust a pool of two, a third is refused, one connection is
abandoned and replaced, the other one comes back. -/
theorem connectionPool_invariant_two :
    ∃ world : PoolWorld ℕ,
      run poolStep ⟨⟨2, [0, 1], []⟩, []⟩
        [.borrow 0 none, .borrow 1 none, .borrow 2 none, .drop ⟨0, 0, false⟩,
          .borrow 2 (some 7), .unborrow 1 1] = some world ∧
      world.pool = ⟨2, [1], [7]⟩ ∧
      world.pool.pool.length + world.pool.borrowed.length = 2 ∧ world.lent.Nodup := by
  refine ⟨_, rfl, rfl, ?_⟩
  have constructed : ConnectionPool.construct 2 some = some ⟨2, [0, 1], []⟩ := rfl
  have ran : run poolStep (⟨⟨2, [0, 1], []⟩, []⟩ : PoolWorld ℕ)
      [.borrow 0 none, .borrow 1 none, .borrow 2 none, .drop ⟨0, 0, false⟩,
        .borrow 2 (some 7), .unborrow 1 1] = some _ := rfl
  have invariant := connectionPool_invariant (by simp) constructed ran
  exact ⟨invariant.1, invariant.2.2.2.2.1⟩

end OperationFrontLine.Pool
