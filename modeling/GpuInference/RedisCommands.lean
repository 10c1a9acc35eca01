import GpuInference.EffectProgram
import GpuInference.PythonBase
import Mathlib.Logic.Function.Basic

/-!
The Redis commands of the admission path. One command is one atomic step on the keyspace. Counter
commands create a missing key without a time to live and keep the one of an existing key; a key
holds a counter, or a text that no admission command has written, such as the overload flag.
-/

open Effect

namespace GpuInference

inductive RedisValue where
  | counter (n : Int)
  | text (s : String)
  deriving DecidableEq, Repr

structure RedisEntry where
  value : RedisValue
  ttl : Option Nat
  deriving DecidableEq, Repr

/-- The keyspace. -/
abbrev Redis := String → Option RedisEntry

/-- `RedisLike`, the part of it that admission calls. -/
inductive RedisOp where
  | get (name : String)
  | incr (name : String)
  | incrby (name : String) (amount : Int)
  | decr (name : String)
  | decrby (name : String) (amount : Int)
  | expire (name : String) (time : Nat)
  | delete (name : String)
  deriving DecidableEq, Repr

abbrev RedisOp.Res : RedisOp → Type
  | get _ => Option String
  | incr _ => Int
  | incrby _ _ => Int
  | decr _ => Int
  | decrby _ _ => Int
  | expire _ _ => Bool
  | delete _ => Int

abbrev RedisProgram := Program RedisOp RedisOp.Res PyExc

/-- The reply to a counter command on a text that is no integer. -/
def responseError : PyExc := .exception none "value is not an integer or out of range"

namespace Redis

/-- The number a key counts, an absent key counting as zero. -/
def counter (redis : Redis) (name : String) : Int :=
  match redis name with
  | some ⟨.counter n, _⟩ => n
  | _ => 0

def remove (redis : Redis) (name : String) : Redis := Function.update redis name none

/-- Every counter command is one addition. -/
def add (redis : Redis) (name : String) (amount : Int) : Except PyExc Int × Redis :=
  match redis name with
  | none => (.ok amount, Function.update redis name (some ⟨.counter amount, none⟩))
  | some ⟨.counter n, ttl⟩ =>
      (.ok (n + amount), Function.update redis name (some ⟨.counter (n + amount), ttl⟩))
  | some ⟨.text s, ttl⟩ =>
      match s.toInt? with
      | some n => (.ok (n + amount), Function.update redis name (some ⟨.counter (n + amount), ttl⟩))
      | none => (.error responseError, redis)

/-- One command. -/
def apply : (op : RedisOp) → Redis → Except PyExc op.Res × Redis
  | .get name, redis => (.ok ((redis name).map fun entry =>
      match entry.value with
      | .counter n => toString n
      | .text s => s), redis)
  | .incr name, redis => redis.add name 1
  | .incrby name amount, redis => redis.add name amount
  | .decr name, redis => redis.add name (-1)
  | .decrby name amount, redis => redis.add name (-amount)
  | .expire name time, redis =>
      match redis name with
      | none => (.ok false, redis)
      | some entry => (.ok true, Function.update redis name (some { entry with ttl := some time }))
  | .delete name, redis => (.ok (if (redis name).isSome then 1 else 0), redis.remove name)

/-- The key is absent or holds a counter: no one has written a text under it. -/
def Counts (redis : Redis) (name : String) : Prop :=
  ∀ entry, redis name = some entry → ∃ n, entry.value = .counter n

theorem counts_of_absent {redis : Redis} {name : String} (h : redis name = none) :
    redis.Counts name := by
  intro entry hentry
  rw [h] at hentry
  cases hentry

theorem counter_of_absent {redis : Redis} {name : String} (h : redis name = none) :
    redis.counter name = 0 := by
  rw [counter, h]

@[simp] theorem counter_remove_self (redis : Redis) (name : String) :
    (redis.remove name).counter name = 0 :=
  counter_of_absent (by simp [remove])

theorem counts_remove_self (redis : Redis) (name : String) : (redis.remove name).Counts name :=
  counts_of_absent (by simp [remove])

/-- On a counter, a counter command returns the sum and stores it. -/
theorem add_spec {redis : Redis} {name : String} (h : redis.Counts name) (amount : Int) :
    (redis.add name amount).1 = .ok (redis.counter name + amount) ∧
      (redis.add name amount).2.counter name = redis.counter name + amount ∧
      (redis.add name amount).2.Counts name := by
  unfold add counter
  cases hentry : redis name with
  | none =>
      refine ⟨by simp, by simp, ?_⟩
      intro entry he
      simp only [Function.update_self, Option.some.injEq] at he
      exact ⟨amount, by rw [← he]⟩
  | some entry =>
      obtain ⟨value, ttl⟩ := entry
      obtain ⟨n, hn⟩ := h _ hentry
      subst hn
      refine ⟨rfl, by simp, ?_⟩
      intro entry he
      simp only [Function.update_self, Option.some.injEq] at he
      exact ⟨n + amount, by rw [← he]⟩

/-- A counter command touches its own key only. -/
theorem add_other (redis : Redis) (name : String) (amount : Int) {other : String} (h : other ≠ name) :
    (redis.add name amount).2 other = redis other := by
  unfold add
  cases redis name with
  | none => exact Function.update_of_ne h _ _
  | some entry =>
      obtain ⟨value, ttl⟩ := entry
      cases value with
      | counter n => exact Function.update_of_ne h _ _
      | text s =>
          simp only
          cases s.toInt? with
          | none => rfl
          | some n => exact Function.update_of_ne h _ _

theorem expire_other (redis : Redis) (name : String) (time : Nat) {other : String} (h : other ≠ name) :
    (apply (.expire name time) redis).2 other = redis other := by
  simp only [apply]
  cases redis name with
  | none => rfl
  | some entry => exact Function.update_of_ne h _ _

/-- EXPIRE answers, and changes no counter. -/
theorem expire_spec {redis : Redis} {name : String} (h : redis.Counts name) (time : Nat) :
    (∃ reply, (apply (.expire name time) redis).1 = .ok reply) ∧
      (apply (.expire name time) redis).2.counter name = redis.counter name ∧
      (apply (.expire name time) redis).2.Counts name := by
  simp only [apply]
  cases hentry : redis name with
  | none => exact ⟨⟨false, rfl⟩, rfl, h⟩
  | some entry =>
      obtain ⟨n, hn⟩ := h entry hentry
      obtain ⟨value, ttl⟩ := entry
      simp only at hn
      subst hn
      refine ⟨⟨true, rfl⟩, ?_, ?_⟩
      · simp [counter, hentry]
      · intro entry' hentry'
        simp only [Function.update_self, Option.some.injEq] at hentry'
        exact ⟨n, by rw [← hentry']⟩

end Redis

def dependencyUnavailable : AppError where
  message := "Redis dependency is unavailable"
  code := "dependency_unavailable"
  statusCode := 503
  type := "server_error"
  param := none

/-- `_redis_call`. -/
def redisCall (op : RedisOp) : RedisProgram op.Res :=
  Program.tryExcept PyExc.isException (Program.perform op) fun exc =>
    match exc with
    | .app error => Program.raise (.app error)
    | _ => Program.raise (.app dependencyUnavailable)

/-- What `_redis_call` raises for an exception of its command. -/
def redisFailure (exc : PyExc) : PyExc :=
  match exc with
  | .app error => .app error
  | .exception _ _ => .app dependencyUnavailable
  | .base name => .base name

theorem redisCall_eq (op : RedisOp) : redisCall op = Program.call op fun
    | .ok value => Program.ret value
    | .error exc => Program.raise (redisFailure exc) := by
  unfold redisCall Program.perform Program.tryExcept
  congr 1
  funext answer
  cases answer with
  | ok value => rfl
  | error exc => cases exc <;> rfl

/-- A command whose `Exception`s are only logged. -/
def loggedCall (op : RedisOp) : RedisProgram Unit :=
  Program.tryExcept PyExc.isException (do
    let _ ← (Program.perform op : RedisProgram op.Res)
    pure ()) fun _ => pure ()

theorem loggedCall_eq (op : RedisOp) : loggedCall op = Program.call op fun
    | .ok _ => Program.ret ()
    | .error exc => if exc.isException then Program.ret () else Program.raise exc := by
  unfold loggedCall Program.perform
  simp only [Program.bind_eq, Program.call_bind, Program.pure_eq, Program.tryExcept]
  congr 1
  funext answer
  cases answer <;> rfl

/-- Give back what a counter counts: decrement, and delete the key when nothing remains. An
`Exception` of either command is only logged. -/
def countDown (key : String) (decrement : RedisProgram Int) : RedisProgram Unit :=
  Program.tryExcept PyExc.isException (do
    let remaining ← decrement
    if remaining ≤ 0 then
      let _ ← (Program.perform (RedisOp.delete key) : RedisProgram Int)
    pure ()) fun _ => pure ()

theorem countDown_call (key : String) (op : RedisOp) (next : Except PyExc op.Res → RedisProgram Int) :
    countDown key (.call op next) = .call op fun answer => countDown key (next answer) := rfl

theorem countDown_ret (key : String) (remaining : Int) :
    countDown key (.ret remaining) =
      if remaining ≤ 0 then
        .call (.delete key) fun
          | .ok _ => .ret ()
          | .error exc => if exc.isException then .ret () else .raise exc
      else .ret () := by
  by_cases hr : remaining ≤ 0
  · simp only [countDown, Program.bind_eq, Program.ret_bind, if_pos hr]
    simp only [Program.perform, Program.call_bind, Program.tryExcept]
    congr 1
    funext answer
    cases answer <;> rfl
  · simp only [countDown, Program.bind_eq, Program.ret_bind, if_neg hr]
    rfl

end GpuInference
