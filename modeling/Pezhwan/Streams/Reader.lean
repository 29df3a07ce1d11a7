import Mathlib.Data.List.Basic
import Mathlib.Order.Basic

-- Reading items off a buffer that grows.
namespace Streams
variable {α β κ : Type}

inductive Turn (α β κ : Type) where
  | wait
  | stop (reason : κ)
  | item (value : β) (rest : List α)
  deriving DecidableEq, Repr

inductive Rest (α κ : Type) where
  | left (buffer : List α)
  | stopped (reason : κ)
  deriving DecidableEq, Repr

def Rest.halted : Rest α κ → Bool
  | .left _ => false
  | .stopped _ => true

-- What a reader says of a buffer, it says with more behind it too.
structure Stable (next : List α → Turn α β κ) : Prop where
  empty : next [] = .wait
  shorter : ∀ buffer value rest, next buffer = .item value rest → rest.length < buffer.length
  item : ∀ buffer more value rest, next buffer = .item value rest → next (buffer ++ more) = .item value (rest ++ more)
  stop : ∀ buffer more reason, next buffer = .stop reason → next (buffer ++ more) = .stop reason

variable {next : List α → Turn α β κ}

def turns (next : List α → Turn α β κ) : ℕ → List α → List β × Rest α κ
  | 0,buffer => ([],.left buffer)
  | fuel + 1,buffer =>
    match next buffer with
    | .wait => ([],.left buffer)
    | .stop reason => ([],.stopped reason)
    | .item value rest => (value :: (turns next fuel rest).1,(turns next fuel rest).2)

def drain (next : List α → Turn α β κ) (buffer : List α) : List β × Rest α κ := turns next buffer.length buffer

-- What more there is for a reader that has left something.
def resume (next : List α → Turn α β κ) (more : List α) (done : List β × Rest α κ) : List β × Rest α κ :=
  match done.2 with
  | .left buffer => (done.1 ++ (drain next (buffer ++ more)).1,(drain next (buffer ++ more)).2)
  | .stopped reason => (done.1,.stopped reason)

theorem turns_nil (stable : Stable next) (fuel : ℕ) : turns next fuel [] = ([],.left []) := by
  cases fuel with
  | zero => rfl
  | succ fuel =>
    unfold turns
    rw [stable.empty]

theorem turns_enough (stable : Stable next) (one : buffer.length ≤ n) (two : buffer.length ≤ m) :
    turns next n buffer = turns next m buffer := by
  induction n generalizing m buffer with
  | zero => rw [List.length_eq_zero_iff.mp (Nat.le_zero.mp one),turns_nil stable,turns_nil stable]
  | succ n ih =>
    cases m with
    | zero => rw [List.length_eq_zero_iff.mp (Nat.le_zero.mp two),turns_nil stable,turns_nil stable]
    | succ m =>
      unfold turns
      cases read : next buffer with
      | wait => rfl
      | stop reason => rfl
      | item value rest =>
        have less := stable.shorter _ _ _ read
        have same : turns next n rest = turns next m rest := ih (by omega) (by omega)
        dsimp only
        rw [same]

theorem turns_drain (stable : Stable next) (enough : buffer.length ≤ fuel) : turns next fuel buffer = drain next buffer :=
  turns_enough stable enough (Nat.le_refl _)

theorem drain_wait (read : next buffer = .wait) : drain next buffer = ([],.left buffer) := by
  unfold drain
  cases buffer.length with
  | zero => rfl
  | succ fuel =>
    unfold turns
    rw [read]

theorem drain_stop (stable : Stable next) (read : next buffer = .stop reason) : drain next buffer = ([],.stopped reason) := by
  rw [← turns_drain stable (Nat.le_succ _)]
  unfold turns
  rw [read]

theorem drain_item (stable : Stable next) (read : next buffer = .item value rest) :
    drain next buffer = (value :: (drain next rest).1,(drain next rest).2) := by
  have less := stable.shorter _ _ _ read
  rw [← turns_drain stable (Nat.le_succ _)]
  unfold turns
  rw [read]
  dsimp only
  rw [turns_drain stable (Nat.le_of_lt less)]

theorem drain_append (stable : Stable next) (buffer more : List α) :
    drain next (buffer ++ more) = resume next more (drain next buffer) := by
  generalize size : buffer.length = n
  induction n using Nat.strongRecOn generalizing buffer with
  | _ n ih =>
    cases read : next buffer with
    | wait => simp [drain_wait read,resume]
    | stop reason =>
      rw [drain_stop stable read,drain_stop stable (stable.stop _ more _ read)]
      rfl
    | item value rest =>
      have less := stable.shorter _ _ _ read
      rw [drain_item stable read,drain_item stable (stable.item _ more _ _ read),ih rest.length (by omega) rest rfl]
      unfold resume
      cases (drain next rest).2 with
      | left buffer => rfl
      | stopped reason => rfl

-- A buffer is read until the reader waits.
def feed (next : List α → Turn α β κ) (done : List β × Rest α κ) (chunks : List (List α)) : List β × Rest α κ :=
  chunks.foldl (fun done chunk => resume next chunk done) done

theorem resume_append (stable : Stable next) (one two : List α) (done : List β × Rest α κ) :
    resume next two (resume next one done) = resume next (one ++ two) done := by
  obtain ⟨values,left⟩ := done
  cases left with
  | stopped reason => rfl
  | left buffer =>
    have cut := drain_append stable (buffer ++ one) two
    rw [List.append_assoc] at cut
    unfold resume at cut ⊢
    dsimp only
    rw [cut]
    cases (drain next (buffer ++ one)).2 with
    | stopped reason => rfl
    | left buffer => simp

theorem feed_flatten (stable : Stable next) (settled : resume next [] done = done) (chunks : List (List α)) :
    feed next done chunks = resume next chunks.flatten done := by
  induction chunks generalizing done with
  | nil => exact settled.symm
  | cons chunk rest ih =>
    have again : resume next [] (resume next chunk done) = resume next chunk done := by
      rw [resume_append stable,List.append_nil]
    have onward := ih again
    rw [resume_append stable] at onward
    exact onward

theorem drain_left (stable : Stable next) (read : (drain next buffer).2 = .left rest) : next rest = .wait := by
  generalize size : buffer.length = n
  induction n using Nat.strongRecOn generalizing buffer with
  | _ n ih =>
    cases turned : next buffer with
    | wait =>
      rw [drain_wait turned] at read
      cases read
      exact turned
    | stop reason =>
      rw [drain_stop stable turned] at read
      cases read
    | item value more =>
      have less := stable.shorter _ _ _ turned
      rw [drain_item stable turned] at read
      exact ih more.length (by omega) read rfl

theorem feed_stopped (values : List β) (reason : κ) (chunks : List (List α)) :
    feed next (values,.stopped reason) chunks = (values,.stopped reason) := by
  induction chunks with
  | nil => rfl
  | cons chunk rest ih => exact ih

theorem feed_prepend (values : List β) (done : List β × Rest α κ) (chunks : List (List α)) :
    feed next (values ++ done.1,done.2) chunks = (values ++ (feed next done chunks).1,(feed next done chunks).2) := by
  induction chunks generalizing done with
  | nil => rfl
  | cons chunk rest ih =>
    have carried : resume next chunk (values ++ done.1,done.2) = (values ++ (resume next chunk done).1,(resume next chunk done).2) := by
      unfold resume
      cases done.2 with
      | stopped reason => rfl
      | left buffer => simp
    unfold feed at ih ⊢
    rw [List.foldl_cons,List.foldl_cons,carried,ih]

end Streams
