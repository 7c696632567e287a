import SubstitutionAutomata.Proofs.Engine.Run
import SubstitutionAutomata.Proofs.Regex.Splice
import Mathlib.Data.List.Range

/-! # Searches for a fixpoint

If passes without a replacement keep the buffer, a search ends with the first buffer that a
generation leaves as it is, if there is one below the limit, and else with the buffer that the limit
allows. A callback sees the buffers before every generation. -/

namespace SubstitutionAutomata

/-- A pass without a replacement keeps the buffer. -/
theorem Pattern.eq_of_apply_zero {p : Pattern} {buffer buffer' : String}
    (h : p.apply buffer = .ok (buffer', 0)) : buffer' = buffer := by
  rw [apply] at h
  split at h
  · rename_i template _
    have hpass := Except.ok.inj h
    rw [Regex.substitute_eq_splice] at hpass
    obtain ⟨hbuffer, hcount⟩ := Prod.mk.inj hpass
    rw [List.eq_nil_of_length_eq_zero hcount, Regex.splice, String.ofList_toList] at hbuffer
    exact hbuffer.symm
  · cases h

/-- A pass without a replacement keeps the buffer. -/
class LawfulPass (π : Type) {φ : outParam Type} [Pass π φ] : Prop where
  eq_of_apply_zero : ∀ {p : π} {buffer buffer' : String},
    Pass.apply p buffer = .ok (buffer', 0) → buffer' = buffer

instance : LawfulPass Pattern where
  eq_of_apply_zero := Pattern.eq_of_apply_zero

namespace Engine

variable {σ π φ : Type}

/-- Hands the generation and the buffer of every visit to a callback, and never stops a run. -/
def calling (look : ℕ → String → σ → σ) : Observer σ Empty π :=
  fun e seen => (look e.generation e.buffer seen, none)

/-- An engine after `n` generations, the buffers of which are given. -/
def advanced (e : Engine π) (b : ℕ → String) (n : ℕ) : Engine π :=
  { e with buffer := b n, generation := e.generation + n }

/-- What a callback has seen after its first `n` calls: the generations in order with their
buffers. -/
def seenAfter (look : ℕ → String → σ → σ) (e : Engine π) (b : ℕ → String) (seen : σ) (n : ℕ) :
    σ :=
  (List.range n).foldl (fun seen i => look (e.generation + i) (b i) seen) seen

variable [Pass π φ] (look : ℕ → String → σ → σ) (seen : σ) {e : Engine π} {b : ℕ → String}
  {counts : ℕ → ℕ} {n : ℕ}

theorem seenAfter_succ (n : ℕ) :
    seenAfter look e b seen (n + 1) =
      look (e.generation + n) (b n) (seenAfter look e b seen n) := by
  rw [seenAfter, List.range_succ, List.foldl_append]
  rfl

theorem advanced_zero (h : b 0 = e.buffer) : e.advanced b 0 = e := by
  rw [advanced, h]
  rfl

theorem step_advanced {count : ℕ} (h : Pass.apply e.pattern (b n) = .ok (b (n + 1), count)) :
    (e.advanced b n).step false = (e.advanced b (n + 1), .ok count) :=
  step_of_apply h

variable [LawfulPass π]

/-- One more visit of a search: it ends if the generation changes nothing. -/
theorem watch_settle_advanced {count : ℕ} (h : Pass.apply e.pattern (b n) = .ok (b (n + 1), count))
    (limit steps : ℕ) :
    ((e.advanced b n).settle (limit + 1) steps).watch (calling look) (seenAfter look e b seen n) =
      if b (n + 1) = b n then
        ⟨e.advanced b (n + 1), seenAfter look e b seen (n + 1), .ok ⟨steps, some count⟩⟩
      else ((e.advanced b (n + 1)).settle limit (steps + 1)).watch (calling look)
        (seenAfter look e b seen (n + 1)) := by
  have hends : (count = 0 ∨ b (n + 1) = b n) ↔ b (n + 1) = b n := by
    refine or_iff_right_of_imp fun hzero => ?_
    subst hzero
    exact LawfulPass.eq_of_apply_zero h
  have hvisit : look (e.advanced b n).generation (e.advanced b n).buffer
      (seenAfter look e b seen n) = seenAfter look e b seen (n + 1) :=
    (seenAfter_succ look seen n).symm
  simp only [settle, Course.watch, calling, step_advanced h, hvisit]
  change (if count = 0 ∨ b (n + 1) = b n then _ else _ : Course Report π φ).watch _ _ = _
  simp only [hends]
  split <;> rfl

/-- A search goes on as long as its generations change the buffer. -/
theorem watch_settle_of_changes (limit steps n : ℕ)
    (hb : ∀ i < n, Pass.apply e.pattern (b i) = .ok (b (i + 1), counts i))
    (hchanges : ∀ i < n, b (i + 1) ≠ b i) :
    ((e.advanced b 0).settle (n + limit) steps).watch (calling look) seen =
      ((e.advanced b n).settle limit (steps + n)).watch (calling look)
        (seenAfter look e b seen n) := by
  -- The induction peels off the last generation, so that the limit grows by one below it.
  induction n generalizing limit with
  | zero =>
      rw [Nat.zero_add]
      rfl
  | succ n ih =>
      have hlater := ih (limit + 1) (fun i hi => hb i (Nat.lt_succ_of_lt hi))
        fun i hi => hchanges i (Nat.lt_succ_of_lt hi)
      rw [Nat.add_assoc, Nat.add_comm 1, hlater,
        watch_settle_advanced look seen (hb n (Nat.lt_succ_self n)),
        if_neg (hchanges n (Nat.lt_succ_self n)), Nat.add_assoc]

/-- Within any larger limit a search ends with the generation that changes nothing. -/
theorem watch_settle_of_fixpoint {k limit : ℕ} (hstart : b 0 = e.buffer)
    (hb : ∀ i ≤ k, Pass.apply e.pattern (b i) = .ok (b (i + 1), counts i))
    (hchanges : ∀ i < k, b (i + 1) ≠ b i) (hfixed : b (k + 1) = b k) (hlimit : k < limit) :
    (e.settle limit 0).watch (calling look) seen =
      ⟨{ e with buffer := b k, generation := e.generation + k + 1 },
        seenAfter look e b seen (k + 1), .ok ⟨k, some (counts k)⟩⟩ := by
  obtain ⟨rest, rfl⟩ := Nat.exists_eq_add_of_lt hlimit
  conv_lhs => rw [← advanced_zero hstart]
  rw [Nat.add_assoc,
    watch_settle_of_changes look seen (rest + 1) 0 k (fun i hi => hb i hi.le) hchanges,
    watch_settle_advanced look seen (hb k le_rfl), if_pos hfixed, Nat.zero_add, advanced, hfixed]
  rfl

/-- A search that finds no such generation ends with the buffer at its limit. -/
theorem watch_settle_of_limit (limit : ℕ) (hstart : b 0 = e.buffer)
    (hb : ∀ i < limit, Pass.apply e.pattern (b i) = .ok (b (i + 1), counts i))
    (hchanges : ∀ i < limit, b (i + 1) ≠ b i) :
    (e.settle limit 0).watch (calling look) seen =
      ⟨{ e with buffer := b limit, generation := e.generation + limit },
        seenAfter look e b seen limit, .ok ⟨limit, none⟩⟩ := by
  have hsettle := watch_settle_of_changes look seen 0 0 limit hb hchanges
  rw [advanced_zero hstart, Nat.add_zero, Nat.zero_add] at hsettle
  exact hsettle

/-- A search ends with the first buffer that a generation leaves as it is, if a limit allows for
this generation: after so many steps, with one more generation, which the callback sees too. If no
generation below a limit leaves its buffer as it is, it ends with the buffer at the limit. -/
theorem settle_ends_at_first_fixpoint {σ π φ : Type} [Pass π φ] [LawfulPass π]
    (look : ℕ → String → σ → σ) (seen : σ) {e : Engine π} {b : ℕ → String} {counts : ℕ → ℕ}
    (hstart : b 0 = e.buffer) (hb : ∀ i, Pass.apply e.pattern (b i) = .ok (b (i + 1), counts i)) :
    (∀ (limit? : Option ℤ) (k : ℕ), b (k + 1) = b k → (∀ i < k, b (i + 1) ≠ b i) →
      (∀ m : ℤ, limit? = some m → (k : ℤ) < m) →
      ∀ limit, Limits limit? k limit →
        (e.settle limit 0).watch (calling look) seen =
          ⟨{ e with buffer := b k, generation := e.generation + k + 1 },
            seenAfter look e b seen (k + 1), .ok ⟨k, some (counts k)⟩⟩) ∧
      ∀ m : ℤ, (∀ k : ℕ, (k : ℤ) < m → b (k + 1) ≠ b k) →
        (e.settle (generations (some m)) 0).watch (calling look) seen =
          ⟨{ e with buffer := b m.toNat, generation := e.generation + m.toNat },
            seenAfter look e b seen m.toNat, .ok ⟨m.toNat, none⟩⟩ := by
  constructor
  · intro limit? k hfixed hchanges hbelow limit hlimit
    exact watch_settle_of_fixpoint look seen hstart (fun i _ => hb i) hchanges hfixed
      (hlimit.lt hbelow)
  · intro m hchanges
    exact watch_settle_of_limit look seen m.toNat hstart (fun i _ => hb i)
      fun i hi => hchanges i (Int.lt_toNat.mp hi)

/-- Puts every a behind the b that follows it, five generations after its start. -/
def swapping : Engine where
  pattern := ⟨[⟨"ab", "swap", []⟩], "ba", .group (.concat [.char 'a', .char 'b']), by
    decide⟩
  buffer := "aab"
  generation := 5
  history := #["aab"]

def swappedBuffers : ℕ → String
  | 0 => "aab"
  | 1 => "aba"
  | _ + 2 => "baa"

def swaps : ℕ → ℕ
  | 0 | 1 => 1
  | _ + 2 => 0

def listCalls (generation : ℕ) (buffer : String) (calls : List (ℕ × String)) :
    List (ℕ × String) :=
  calls ++ [(generation, buffer)]

/-- A limit of two steps falls on the fixpoint, and only a larger one finds it. -/
theorem settle_ends_at_first_fixpoint_swapping :
    swappedBuffers 0 = swapping.buffer ∧
      (∀ i, swapping.pattern.apply (swappedBuffers i) =
        .ok (swappedBuffers (i + 1), swaps i)) ∧
      (swapping.settle 3 0).watch (calling listCalls) [] =
        ⟨{ swapping with buffer := "baa", generation := 8 },
          [(5, "aab"), (6, "aba"), (7, "baa")], .ok ⟨2, some 0⟩⟩ ∧
      (swapping.settle 2 0).watch (calling listCalls) [] =
        ⟨{ swapping with buffer := "baa", generation := 7 }, [(5, "aab"), (6, "aba")],
          .ok ⟨2, none⟩⟩ := by
  have happly : ∀ i, swapping.pattern.apply (swappedBuffers i) =
      .ok (swappedBuffers (i + 1), swaps i)
    | 0 => by decide
    | 1 => by decide
    | _ + 2 => by
      change swapping.pattern.apply "baa" = .ok ("baa", 0)
      decide
  have hchanges : ∀ i < 2, swappedBuffers (i + 1) ≠ swappedBuffers i := by decide
  obtain ⟨hhalts, hstops⟩ := settle_ends_at_first_fixpoint listCalls [] (e := swapping) rfl happly
  exact ⟨rfl, happly, hhalts (some 3) 2 rfl hchanges (by simp) 3 rfl,
    hstops 2 fun k hk => hchanges k (by omega)⟩

end Engine

end SubstitutionAutomata
