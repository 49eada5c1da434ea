import VirtualPrinter.Proofs.Binary64.Fraction
import VirtualPrinter.Proofs.Machine.Run
import VirtualPrinter.Proofs.Program.Size

/-!
# Progress of a run

A fraction of the run always leads to a place on the path and in the file, and a fraction below one
to a place before the end of both. Only the end of the duration finishes a run: the fraction of it
that has elapsed is below one as long as the elapsed time is below the duration.
-/

namespace VirtualPrinter

open Binary64

attribute [local irreducible] Binary64.ofNat Binary64.ofRatio

/-- Completion and position of a run that is not finished, in a file of the given size. -/
structure Underway (completion : Binary64) (position size : Int) : Prop where
  completion_nonneg : Binary64.le 0 completion = true
  completion_lt : completion.lt 1 = true
  position_nonneg : 0 ≤ position
  position_lt : 0 < size → position < size
  position_zero : size = 0 → position = 0

theorem underway_start (size : Int) : Underway 0 0 size where
  completion_nonneg := zero_belowOne.bounds.1
  completion_lt := zero_belowOne.bounds.2
  position_nonneg := le_rfl
  position_lt h := h
  position_zero _ := rfl

theorem underway_of_belowOne {x : Binary64} {k size : Nat} (hx : BelowOne x) (hle : k ≤ size)
    (hlt : 0 < size → k < size) : Underway x k size where
  completion_nonneg := hx.bounds.1
  completion_lt := hx.bounds.2
  position_nonneg := by omega
  position_lt h := by
    have hk := hlt (by omega)
    omega
  position_zero h := by omega

namespace Program

theorem wholeStep_mul {t : Binary64} {n : Nat} (ht : InUnit t) (hn : n ≤ 2 ^ 53) :
    ∃ k : Nat, wholeStep (t * .ofNat n) = .ok (k : Int) ∧ k ≤ n ∧
      (BelowOne t → 0 < n → k < n) := by
  obtain ⟨k, hk, hle, hlt⟩ := floor_mul_ofNat ht hn
  refine ⟨k, ?_, hle, hlt⟩
  rw [wholeStep, hk]
  rfl

theorem endpointAt_ok {p : Program} {k : Nat} (h : k < p.endpoints.length) :
    p.endpointAt (k : Int) = .ok p.endpoints[k] := by
  change p.endpoints[k]?.elim _ _ = _
  rw [List.getElem?_eq_getElem h]
  rfl

theorem progress_path {p : Program} {size : Nat} {t : Binary64} {index position : Int}
    {head : Point} (hlong : 1 < p.endpoints.length)
    (hindex : pathIndex (p.endpoints.length - 1) t = .ok index)
    (hhead : p.endpointAt index = .ok head)
    (hposition : wholeStep (ofRatio false index.toNat (p.endpoints.length - 1) * .ofNat size) =
      .ok position) :
    p.progress size t =
      .ok ⟨head, ofRatio false index.toNat (p.endpoints.length - 1), position⟩ := by
  unfold progress
  rw [if_pos hlong]
  dsimp only
  rw [hindex, ok_bind, hhead, ok_bind, hposition, ok_bind]
  rfl

theorem progress_timed {p : Program} {size : Nat} {t : Binary64} {position : Int}
    (hshort : ¬ 1 < p.endpoints.length)
    (hposition : wholeStep (t * .ofNat size) = .ok position) :
    p.progress size t = .ok ⟨parked p.layers.low, t, position⟩ := by
  unfold progress
  rw [if_neg hshort, hposition, ok_bind]
  rfl

/- The path of a program has at most `2^53` steps, and so has its file bytes, when both counts are
values of the format; beyond that the last index may be rounded off the path. -/
theorem progress_ok {p : Program} {size : Nat} {t : Binary64} (ht : InUnit t)
    (hpath : p.endpoints.length ≤ 2 ^ 53 + 1) (hsize : size ≤ 2 ^ 53) :
    ∃ g, p.progress size t = .ok g ∧
      (BelowOne t → Underway g.completion g.filePosition size) := by
  by_cases hlong : 1 < p.endpoints.length
  · obtain ⟨k, hk, hle, hlt⟩ := wholeStep_mul (n := p.endpoints.length - 1) ht (by omega)
    have hc : InUnit (ofRatio false k (p.endpoints.length - 1)) :=
      ofRatio_inUnit (by omega) hle
    obtain ⟨j, hj, hjle, hjlt⟩ := wholeStep_mul hc hsize
    refine ⟨⟨p.endpoints[k], ofRatio false k (p.endpoints.length - 1), j⟩, ?_, ?_⟩
    · exact progress_path hlong hk (endpointAt_ok (by omega)) hj
    · intro hb
      have hbelow := ofRatio_belowOne (hlt hb (by omega)) (by omega)
      exact underway_of_belowOne hbelow hjle (hjlt hbelow)
  · obtain ⟨j, hj, hjle, hjlt⟩ := wholeStep_mul ht hsize
    refine ⟨⟨parked p.layers.low, t, j⟩, ?_, ?_⟩
    · exact progress_timed hlong hj
    · intro hb
      exact underway_of_belowOne hb hjle (hjlt hb)

end Program

namespace Machine

theorem elapsedFraction_inUnit (elapsed duration : Binary64) :
    InUnit (elapsedFraction elapsed duration) := by
  unfold elapsedFraction
  split
  · exact clampToUnit_inUnit _
  · exact one_inUnit

theorem elapsedFraction_belowOne {elapsed duration : Binary64} (h : elapsed.lt duration = true)
    (hpos : Binary64.lt 0 duration = true) (hfin : duration.isFinite = true) :
    BelowOne (elapsedFraction elapsed duration) := by
  rw [elapsedFraction, if_pos hpos]
  exact clampToUnit_belowOne (div_lt_one h hpos hfin)

/-- The steps of the path and the bytes of the file are no more than the format can count. -/
structure Fits (m : Machine) : Prop where
  path : ∀ p, m.program = some p → p.endpoints.length ≤ 2 ^ 53 + 1
  size : m.job.fileSize ≤ 2 ^ 53

/- Only a machine that does not fit can make a tick fail. -/
theorem tick_ok {m : Machine} (now : Binary64) (observer : Observer)
    (hduration : m.job.duration.isSome = true) (h : m.Fits) :
    ∃ t, m.tick now observer = .ok t := by
  cases ht : m.tick now observer with
  | ok t => exact ⟨t, rfl⟩
  | error fault =>
    exfalso
    obtain ⟨duration, hd⟩ := Option.isSome_iff_exists.1 hduration
    by_cases hmode : m.runMode = .printing
    · cases hs : m.job.startedAt with
      | none => simp only [tick, hmode, hs, reduceCtorEq] at ht
      | some startedAt =>
        cases hp : m.program with
        | none => simp only [tick, hmode, hs, hp, reduceCtorEq] at ht
        | some program =>
          obtain ⟨g, hg, _⟩ := Program.progress_ok
            (elapsedFraction_inUnit (now - startedAt) duration) (h.path program hp) h.size
          rw [tick_printing hmode hs hp hd] at ht
          cases hlt : (now - startedAt).lt duration with
          | true =>
            rw [tickPrinting_early hg hlt] at ht
            contradiction
          | false =>
            rw [tickPrinting_late hg hlt] at ht
            contradiction
    · by_cases hidle : m.runMode = .idle
      · rw [tick_idle hidle] at ht
        contradiction
      · rw [tick_held hidle hmode] at ht
        contradiction

/- A machine with the program and the size of a text; its job has a duration. -/
structure Installed (m : Machine) (text : String) (program : Program) : Prop where
  interpreted : Program.ofText text = .ok program
  program : m.program = some program
  size : m.job.fileSize = text.utf8ByteSize
  duration : m.job.duration.isSome = true

theorem Installed.of_frame {m n : Machine} {text : String} {program : Program}
    (h : Installed m text program) (hp : n.program = m.program)
    (hs : n.job.fileSize = m.job.fileSize) (hd : n.job.duration = m.job.duration) :
    Installed n text program where
  interpreted := h.interpreted
  program := hp.trans h.program
  size := hs.trans h.size
  duration := hd ▸ h.duration

/- A text has no more points than bytes, so it is the size that decides. -/
theorem Installed.fits_iff {m : Machine} {text : String} {program : Program}
    (h : Installed m text program) : m.Fits ↔ m.job.fileSize ≤ 2 ^ 53 := by
  refine ⟨Fits.size, fun hsize => ⟨fun p hp => ?_, hsize⟩⟩
  have hpath := Program.endpoints_length_le h.interpreted
  rw [← h.size] at hpath
  rw [h.program] at hp
  cases hp
  omega

theorem Installed.tick_ok {m : Machine} {text : String} {program : Program}
    (h : Installed m text program) (now : Binary64) (observer : Observer)
    (hsize : m.job.fileSize ≤ 2 ^ 53) : ∃ t, m.tick now observer = .ok t :=
  Machine.tick_ok now observer h.duration (h.fits_iff.2 hsize)

end Machine

end VirtualPrinter
