import Chip8Vm.Pace.Pacer

/-!
# Chip8Vm.Proofs.Pace.Timetable

Which ticks are due within a span, and in which order.

The `k`-th tick of a kind is due `k * 10^9 / hz` nanoseconds after the start.  The
timetable for a span holds every tick that is due within it, by deadline and with
the timers first on a tie.  It knows nothing of clocks, of looks at the clock or of
what ticks do:

* `mem_entries` — which ticks it holds;
* `pairwise_entries` — in which order;
* `left_timer`, `left_instruction`, `left_eq_nil` — what is left of it when some
  ticks are done begins with the tick that a pacer picks.
-/

namespace Chip8Vm.Timetable

/-- A tick by its kind and its number; the first of a kind has number one. -/
abbrev Entry := Tick × Nat

/-- How many ticks of a kind there are in a second; a rate of zero counts as one. -/
def rate (hz : Nat) : Tick → Nat
  | .timer => Pacer.timerRate
  | .instruction => max hz 1

/-- How long after the start a tick is due. -/
def deadline (hz : Nat) (e : Entry) : Nat := e.2 * Span.second / rate hz e.1

/-- How many ticks of a kind are due within a span. -/
def count (hz limit : Nat) (t : Tick) : Nat := ((limit + 1) * rate hz t - 1) / Span.second

/-- The ticks of a kind due within a span, without those that are done. -/
def column (hz limit : Nat) (t : Tick) (done : Nat) : List Entry :=
  (List.range' (done + 1) (count hz limit t - done)).map fun k => (t, k)

/-- What is left of the timetable when so many ticks of either kind are done. -/
def left (hz limit timers instructions : Nat) : List Entry :=
  (column hz limit .timer timers).merge (column hz limit .instruction instructions)
    fun a b => deadline hz a ≤ deadline hz b

/-- The timetable for a span. -/
def entries (hz limit : Nat) : List Entry := left hz limit 0 0

/-- The ticks of the timetable in their order. -/
def ticks (hz limit : Nat) : List Tick := (entries hz limit).map Prod.fst

/-- A tick comes before another if its deadline is earlier.  On a tie the timers come
first, and among ticks of one kind the lower number. -/
def Before (hz : Nat) (a b : Entry) : Prop :=
  deadline hz a < deadline hz b ∨
    deadline hz a = deadline hz b ∧
      (a.1 = .timer ∧ b.1 = .instruction ∨ a.1 = b.1 ∧ a.2 < b.2)

variable {hz limit timers instructions : Nat} {t : Tick}

/-! ## Deadlines -/

theorem rate_pos (hz : Nat) (t : Tick) : 0 < rate hz t := by
  cases t with
  | timer => exact Nat.succ_pos 59
  | instruction =>
      simp only [rate]
      omega

/-- Later ticks of a kind are due no earlier. -/
theorem deadline_mono {j k : Nat} (h : j ≤ k) : deadline hz (t, j) ≤ deadline hz (t, k) :=
  Nat.div_le_div_right (Nat.mul_le_mul_right _ h)

/-- Two ticks of a kind are at most a second apart, and a nanosecond for rounding. -/
theorem deadline_succ_le (k : Nat) :
    deadline hz (t, k + 1) ≤ deadline hz (t, k) + Span.second + 1 := by
  have hr := rate_pos hz t
  have hquot : Span.second / rate hz t ≤ Span.second := Nat.div_le_self _ _
  simp only [deadline]
  rw [Nat.succ_mul, Nat.add_div hr]
  split <;> omega

/-- A tick is due within a span exactly if it is one of as many as are counted. -/
theorem le_count_iff {k : Nat} : k ≤ count hz limit t ↔ deadline hz (t, k) ≤ limit := by
  have hr := rate_pos hz t
  have hpos : 0 < (limit + 1) * rate hz t := Nat.mul_pos (Nat.succ_pos _) hr
  calc
    k ≤ count hz limit t ↔ k * Span.second ≤ (limit + 1) * rate hz t - 1 :=
      Nat.le_div_iff_mul_le (by decide)
    _ ↔ k * Span.second < (limit + 1) * rate hz t := by omega
    _ ↔ deadline hz (t, k) < limit + 1 := (Nat.div_lt_iff_lt_mul hr).symm
    _ ↔ deadline hz (t, k) ≤ limit := Nat.lt_succ_iff

/-- At a rate of at most a tick per nanosecond, there are no more ticks than nanoseconds. -/
theorem count_le (hrate : rate hz t ≤ Span.second) : count hz limit t ≤ limit := by
  have hpos : 0 < Span.second := by unfold Span.second; omega
  have hle : (limit + 1) * rate hz t ≤ (limit + 1) * Span.second := Nat.mul_le_mul_left _ hrate
  refine Nat.lt_add_one_iff.mp ((Nat.div_lt_iff_lt_mul hpos).mpr ?_)
  have hsome : 0 < (limit + 1) * rate hz t := Nat.mul_pos (Nat.succ_pos _) (rate_pos hz t)
  omega

/-! ## What is left -/

theorem mem_column {done : Nat} {e : Entry} :
    e ∈ column hz limit t done ↔ e.1 = t ∧ done < e.2 ∧ e.2 ≤ count hz limit t := by
  obtain ⟨u, k⟩ := e
  simp only [column, List.mem_map, List.mem_range'_1, Prod.mk.injEq]
  constructor
  · rintro ⟨j, hj, rfl, rfl⟩
    exact ⟨rfl, by omega⟩
  · rintro ⟨rfl, hk⟩
    exact ⟨k, by omega, rfl, rfl⟩

/-- The first tick of a kind that is not done, and the others. -/
theorem column_eq_cons {done : Nat} (h : done < count hz limit t) :
    column hz limit t done = (t, done + 1) :: column hz limit t (done + 1) := by
  obtain ⟨n, hn⟩ : ∃ n, count hz limit t - done = n + 1 := ⟨count hz limit t - done - 1, by omega⟩
  have hn' : count hz limit t - (done + 1) = n := by omega
  simp only [column, hn, hn', List.range'_succ, List.map_cons]

theorem column_eq_nil {done : Nat} (h : count hz limit t ≤ done) :
    column hz limit t done = [] := by
  simp [column, Nat.sub_eq_zero_of_le h]

theorem mem_left {e : Entry} :
    e ∈ left hz limit timers instructions ↔
      (e.1 = .timer ∧ timers < e.2 ∧ e.2 ≤ count hz limit .timer) ∨
      (e.1 = .instruction ∧ instructions < e.2 ∧ e.2 ≤ count hz limit .instruction) := by
  rw [left, List.mem_merge, mem_column, mem_column]

/-- What is left begins with the next tick of the timers if that is due first. -/
theorem left_timer
    (hfirst : deadline hz (.timer, timers + 1) ≤ deadline hz (.instruction, instructions + 1))
    (hdue : deadline hz (.timer, timers + 1) ≤ limit) :
    left hz limit timers instructions =
      (.timer, timers + 1) :: left hz limit (timers + 1) instructions := by
  have htimer := column_eq_cons (le_count_iff.mpr hdue)
  by_cases hmore : instructions < count hz limit .instruction
  · rw [left, left, htimer, column_eq_cons hmore,
      List.cons_merge_cons_pos _ _ _ (by simpa using hfirst)]
  · rw [left, left, htimer, column_eq_nil (Nat.le_of_not_lt hmore), List.merge_right,
      List.merge_right]

/-- What is left begins with the next instruction if that is due before the timers. -/
theorem left_instruction
    (hfirst : deadline hz (.instruction, instructions + 1) < deadline hz (.timer, timers + 1))
    (hdue : deadline hz (.instruction, instructions + 1) ≤ limit) :
    left hz limit timers instructions =
      (.instruction, instructions + 1) :: left hz limit timers (instructions + 1) := by
  have hinstruction := column_eq_cons (le_count_iff.mpr hdue)
  by_cases hmore : timers < count hz limit .timer
  · rw [left, left, hinstruction, column_eq_cons hmore,
      List.cons_merge_cons_neg _ _ _ (by simpa using hfirst)]
  · rw [left, left, hinstruction, column_eq_nil (Nat.le_of_not_lt hmore), List.nil_merge,
      List.nil_merge]

/-- Nothing is left if neither kind is due any more. -/
theorem left_eq_nil (htimer : limit < deadline hz (.timer, timers + 1))
    (hinstruction : limit < deadline hz (.instruction, instructions + 1)) :
    left hz limit timers instructions = [] := by
  have ht : ¬ timers + 1 ≤ count hz limit .timer := mt le_count_iff.mp (Nat.not_le.mpr htimer)
  have hi : ¬ instructions + 1 ≤ count hz limit .instruction :=
    mt le_count_iff.mp (Nat.not_le.mpr hinstruction)
  rw [left, column_eq_nil (by omega), column_eq_nil (by omega), List.nil_merge]

/-! ## The order -/

theorem Before.later {e : Entry} {j k : Nat} (h : Before hz e (t, j)) (hk : j ≤ k) :
    Before hz e (t, k) := by
  have hmono : deadline hz (t, j) ≤ deadline hz (t, k) := deadline_mono hk
  obtain hlt | ⟨heq, htie⟩ := h
  · exact .inl (Nat.lt_of_lt_of_le hlt hmono)
  · obtain hlt | heq' := Nat.lt_or_eq_of_le hmono
    · exact .inl (Nat.lt_of_le_of_lt (Nat.le_of_eq heq) hlt)
    · exact .inr ⟨heq.trans heq', htie.imp_right fun ⟨hkind, hnumber⟩ =>
        ⟨hkind, Nat.lt_of_lt_of_le hnumber hk⟩⟩

/-- A tick that comes before the next one of either kind comes before all that is
left. -/
theorem before_of_mem_left {e d : Entry} (htimer : Before hz e (.timer, timers + 1))
    (hinstruction : Before hz e (.instruction, instructions + 1))
    (hd : d ∈ left hz limit timers instructions) : Before hz e d := by
  obtain ⟨t, k⟩ := d
  obtain ⟨rfl, hk, -⟩ | ⟨rfl, hk, -⟩ := mem_left.mp hd
  · exact htimer.later hk
  · exact hinstruction.later hk

theorem before_succ (k : Nat) : Before hz (t, k) (t, k + 1) := by
  have hmono : deadline hz (t, k) ≤ deadline hz (t, k + 1) := deadline_mono (Nat.le_succ k)
  obtain hlt | heq := Nat.lt_or_eq_of_le hmono
  · exact .inl hlt
  · exact .inr ⟨heq, .inr ⟨rfl, Nat.lt_succ_self k⟩⟩

theorem pairwise_left (hz limit timers instructions : Nat) :
    (left hz limit timers instructions).Pairwise (Before hz) := by
  -- the induction is on how many ticks are left, whichever kind comes next
  generalize hn :
    (count hz limit .timer - timers) + (count hz limit .instruction - instructions) = n
  induction n generalizing timers instructions with
  | zero =>
      have hnil : left hz limit timers instructions = [] := by
        rw [left, column_eq_nil (by omega), column_eq_nil (by omega), List.nil_merge]
      rw [hnil]
      exact .nil
  | succ n ih =>
      by_cases hfirst :
          deadline hz (.timer, timers + 1) ≤ deadline hz (.instruction, instructions + 1)
      · by_cases hdue : deadline hz (.timer, timers + 1) ≤ limit
        · have hcount := le_count_iff.mpr hdue
          rw [left_timer hfirst hdue]
          refine .cons (fun d hd => before_of_mem_left (before_succ _) ?_ hd)
            (ih (timers + 1) instructions (by omega))
          obtain hlt | heq := Nat.lt_or_eq_of_le hfirst
          · exact .inl hlt
          · exact .inr ⟨heq, .inl ⟨rfl, rfl⟩⟩
        · rw [left_eq_nil (by omega) (by omega)]
          exact .nil
      · by_cases hdue : deadline hz (.instruction, instructions + 1) ≤ limit
        · have hcount := le_count_iff.mpr hdue
          rw [left_instruction (by omega) hdue]
          exact .cons (fun d hd => before_of_mem_left (.inl (by omega)) (before_succ _) hd)
            (ih timers (instructions + 1) (by omega))
        · rw [left_eq_nil (by omega) (by omega)]
          exact .nil

/-- The timetable for a span holds exactly the ticks that are due within it. -/
theorem mem_entries {e : Entry} : e ∈ entries hz limit ↔ 1 ≤ e.2 ∧ deadline hz e ≤ limit := by
  obtain ⟨t, k⟩ := e
  rw [entries, mem_left, ← le_count_iff]
  cases t <;> simp [Nat.succ_le_iff]

theorem pairwise_entries (hz limit : Nat) : (entries hz limit).Pairwise (Before hz) :=
  pairwise_left hz limit 0 0

end Chip8Vm.Timetable
