import SpdySessions.Proofs.Wire.RoundTrip

/-! Borrowing from a pool. Borrowers fill their buffers and give them back in any order, and buffers that
never came from the pool are given to it as well. Next to every buffer in somebody's hands stands what
ought to be in it: what its holder put there. That and the pool are followed through a run of uses; a
buffer never holds anything else, whoever had it before. -/

namespace SpdySessions

namespace BufferPool

/-- A buffer in somebody's hands, and the bytes that its holder knows of: those that it had when it was
brought along, and those that were appended to it since. -/
structure Loan where
  buffer : Buffer
  own : Bytes

def Loan.append (l : Loan) (bytes : Bytes) : Loan :=
  ⟨l.buffer.append bytes, l.own ++ bytes⟩

/-- Something that is done with a pool and the buffers around it. -/
inductive Use where
  | acquire (n : Nat)
  | append (place : Nat) (bytes : Bytes)
  | release (place : Nat)
  /-- A buffer comes along that is not from the pool. -/
  | bring (buffer : Buffer)

/-- A pool and the buffers that are in somebody's hands. -/
structure Counter where
  pool : BufferPool
  held : List Loan := []

namespace Counter

/-- The counter after a use. A buffer that is not there any more is not used. -/
def after (c : Counter) : Use → Counter
  | .acquire n =>
      { pool := (c.pool.acquire n).2, held := c.held ++ [⟨(c.pool.acquire n).1, []⟩] }
  | .append place bytes => { c with held := c.held.modify place (·.append bytes) }
  | .release place =>
      match c.held[place]? with
      | none => c
      | some l => { pool := c.pool.release l.buffer, held := c.held.eraseIdx place }
  | .bring buffer => { c with held := c.held ++ [⟨buffer, buffer.content⟩] }

/-- The counter after a run of uses of a new pool. -/
def run (bufferSize maxPooled : Nat) (uses : List Use) : Counter :=
  uses.foldl after { pool := { bufferSize, maxPooled } }

end Counter

/-! ### One use of a pool -/

theorem maxPooled_acquire (p : BufferPool) (n : Nat) : (p.acquire n).2.maxPooled = p.maxPooled := by
  unfold acquire
  split <;> rfl

theorem maxPooled_release (p : BufferPool) (b : Buffer) : (p.release b).maxPooled = p.maxPooled := by
  unfold release
  split <;> rfl

theorem idleCount_acquire (p : BufferPool) (n : Nat) :
    (p.acquire n).2.idleCount = if 0 < p.idleCount then p.idleCount - 1 else p.idleCount := by
  cases hidle : p.idle with
  | nil => simp [acquire, idleCount, hidle]
  | cons first rest => simp [acquire, idleCount, hidle]

theorem idleCount_release (p : BufferPool) (b : Buffer) :
    (p.release b).idleCount = if p.idleCount < p.maxPooled then p.idleCount + 1 else p.idleCount := by
  unfold release idleCount
  split <;> simp

/-- Whatever a buffer was made for, there is room in it for what is asked now. -/
theorem le_capacity_acquire (p : BufferPool) (n : Nat) :
    (p.acquire n).1.content.length + n ≤ (p.acquire n).1.capacity := by
  unfold acquire
  split <;> exact Nat.le_max_right _ _

/-! ### What a run of uses keeps -/

/-- What holds of a counter at all times: the pool came about by borrowing and giving back, is not
overfull, and every buffer in somebody's hands holds what it ought to hold. -/
structure Counter.Sound (maxPooled : Nat) (c : Counter) : Prop where
  reachable : c.pool.Reachable
  maxPooled_eq : c.pool.maxPooled = maxPooled
  idleCount_le : c.pool.idleCount ≤ maxPooled
  content : ∀ l ∈ c.held, l.buffer.content = l.own

namespace Counter

variable {maxPooled : Nat} {c : Counter}

theorem Sound.acquire (h : c.Sound maxPooled) (n : Nat) : (c.after (.acquire n)).Sound maxPooled where
  reachable := h.reachable.acquire n
  maxPooled_eq := (maxPooled_acquire c.pool n).trans h.maxPooled_eq
  idleCount_le := by
    have hcount := idleCount_acquire c.pool n
    have hle := h.idleCount_le
    show (c.pool.acquire n).2.idleCount ≤ maxPooled
    split at hcount <;> omega
  content := by
    intro l hl
    rcases List.mem_append.mp hl with hl | hl
    · exact h.content l hl
    · obtain rfl := List.mem_singleton.mp hl
      exact h.reachable.content_acquire n

theorem Sound.append (h : c.Sound maxPooled) (place : Nat) (bytes : Bytes) :
    (c.after (.append place bytes)).Sound maxPooled where
  reachable := h.reachable
  maxPooled_eq := h.maxPooled_eq
  idleCount_le := h.idleCount_le
  content := by
    intro l hl
    obtain ⟨i, hi⟩ := List.mem_iff_getElem?.mp hl
    have hi' : (c.held.modify place (·.append bytes))[i]? = some l := hi
    rw [List.getElem?_modify] at hi'
    obtain ⟨before, hbefore, rfl⟩ := Option.map_eq_some_iff.mp hi'
    have hcontent := h.content before (List.mem_of_getElem? hbefore)
    split
    · show before.buffer.content ++ bytes = before.own ++ bytes
      rw [hcontent]
    · exact hcontent

theorem Sound.release (h : c.Sound maxPooled) (place : Nat) :
    (c.after (.release place)).Sound maxPooled := by
  cases hl : c.held[place]? with
  | none =>
      have hsame : c.after (.release place) = c := by simp only [after, hl]
      rw [hsame]
      exact h
  | some l =>
      have hgiven : c.after (.release place) =
          { pool := c.pool.release l.buffer, held := c.held.eraseIdx place } := by
        simp only [after, hl]
      rw [hgiven]
      refine ⟨h.reachable.release l.buffer, ?_, ?_, fun l hl => h.content l (List.mem_of_mem_eraseIdx hl)⟩
      · exact (maxPooled_release c.pool l.buffer).trans h.maxPooled_eq
      · have hcount := idleCount_release c.pool l.buffer
        have hle := h.idleCount_le
        rw [h.maxPooled_eq] at hcount
        show (c.pool.release l.buffer).idleCount ≤ maxPooled
        split at hcount <;> omega

theorem Sound.bring (h : c.Sound maxPooled) (buffer : Buffer) :
    (c.after (.bring buffer)).Sound maxPooled where
  reachable := h.reachable
  maxPooled_eq := h.maxPooled_eq
  idleCount_le := h.idleCount_le
  content := by
    intro l hl
    rcases List.mem_append.mp hl with hl | hl
    · exact h.content l hl
    · obtain rfl := List.mem_singleton.mp hl
      rfl

theorem Sound.after (h : c.Sound maxPooled) (use : Use) : (c.after use).Sound maxPooled := by
  cases use with
  | acquire n => exact h.acquire n
  | append place bytes => exact h.append place bytes
  | release place => exact h.release place
  | bring buffer => exact h.bring buffer

theorem Sound.foldl (h : c.Sound maxPooled) (uses : List Use) :
    (uses.foldl Counter.after c).Sound maxPooled := by
  induction uses generalizing c with
  | nil => exact h
  | cons use uses ih => exact ih (h.after use)

theorem sound_run (bufferSize maxPooled : Nat) (uses : List Use) :
    (run bufferSize maxPooled uses).Sound maxPooled := by
  have hnew : Sound maxPooled { pool := { bufferSize, maxPooled } } :=
    ⟨.empty bufferSize maxPooled, rfl, Nat.zero_le _, fun _ hl => absurd hl List.not_mem_nil⟩
  exact hnew.foldl uses

/-- **A pool lends empty buffers.** After any run of uses, by any borrowers: what is idle is empty, and
not more than the pool may keep; whoever borrows gets an empty buffer with the room that was asked for;
one buffer less is idle after that if any was, and one more after a buffer was given back if there was a
place for it; and every buffer in somebody's hands holds the bytes that its holder put there. -/
theorem borrowers_find_their_own (bufferSize maxPooled : Nat) (uses : List Use) :
    (∀ b ∈ (run bufferSize maxPooled uses).pool.idle, b.content = []) ∧
    (run bufferSize maxPooled uses).pool.idleCount ≤ maxPooled ∧
    (∀ n, ((run bufferSize maxPooled uses).pool.acquire n).1.content = [] ∧
      n ≤ ((run bufferSize maxPooled uses).pool.acquire n).1.capacity ∧
      ((run bufferSize maxPooled uses).pool.acquire n).2.idleCount =
        if 0 < (run bufferSize maxPooled uses).pool.idleCount then
          (run bufferSize maxPooled uses).pool.idleCount - 1
        else (run bufferSize maxPooled uses).pool.idleCount) ∧
    (∀ b, ((run bufferSize maxPooled uses).pool.release b).idleCount =
      if (run bufferSize maxPooled uses).pool.idleCount < maxPooled then
        (run bufferSize maxPooled uses).pool.idleCount + 1
      else (run bufferSize maxPooled uses).pool.idleCount) ∧
    ∀ l ∈ (run bufferSize maxPooled uses).held, l.buffer.content = l.own := by
  have h := sound_run bufferSize maxPooled uses
  generalize run bufferSize maxPooled uses = c at h ⊢
  refine ⟨h.reachable.content_idle, h.idleCount_le, fun n => ⟨h.reachable.content_acquire n, ?_,
    idleCount_acquire c.pool n⟩, fun b => ?_, h.content⟩
  · have hroom := le_capacity_acquire c.pool n
    rwa [h.reachable.content_acquire n, List.length_nil, Nat.zero_add] at hroom
  · have hcount := idleCount_release c.pool b
    rwa [h.maxPooled_eq] at hcount

/-- A pool with one place: what the first borrower wrote is gone for the third, and the second's buffer
is let go. -/
example :
    let c := run 2 1 [.acquire 1, .acquire 9, .append 0 [7, 7], .append 1 [8], .release 0, .release 0,
      .acquire 3, .bring ⟨[5], 1⟩, .append 1 [6]]
    c.pool.idle = [] ∧ c.held.map Loan.own = [[], [5, 6]] ∧
      c.held.map (·.buffer) = [⟨[], 3⟩, ⟨[5, 6], 2⟩] := by
  decide

end Counter

end BufferPool

end SpdySessions
