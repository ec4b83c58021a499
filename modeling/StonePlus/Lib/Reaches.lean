import StonePlus.Lib.Effect

/-!
# StonePlus.Lib.Reaches

Total correctness of a program that adds to a log.

`Reaches m s log post` says that `m`, run from `s` after the output `log`, does
not throw and ends in `post`, which speaks of the whole output.  The rules pass
the log along, so a proof never splits it.
-/

namespace StonePlus.Lib.Effect

variable {σ ω ε α β : Type}

/-- `m` run from `s` after the output `log` returns in `post`. -/
def Reaches (m : Effect σ ω ε α) (s : σ) (log : List ω) (post : α → σ → List ω → Prop) : Prop :=
  wp m s (fun a s' out => post a s' (log ++ out)) fun _ _ _ => False

variable {m : Effect σ ω ε α} {s : σ} {log : List ω} {post post' : α → σ → List ω → Prop}

@[simp] theorem reaches_pure (a : α) : Reaches (ε := ε) (pure a) s log post ↔ post a s log := by
  simp [Reaches]

@[simp] theorem reaches_get {post : σ → σ → List ω → Prop} :
    Reaches (ε := ε) get s log post ↔ post s s log := by
  simp [Reaches]

@[simp] theorem reaches_modify {post : Unit → σ → List ω → Prop} (f : σ → σ) :
    Reaches (ε := ε) (modify f) s log post ↔ post () (f s) log := by
  simp [Reaches]

@[simp] theorem reaches_emit {post : Unit → σ → List ω → Prop} (w : ω) :
    Reaches (ε := ε) (emit w) s log post ↔ post () s (log ++ [w]) := by
  simp [Reaches]

@[simp] theorem reaches_bind {post : β → σ → List ω → Prop} (f : α → Effect σ ω ε β) :
    Reaches (m >>= f) s log post ↔
      Reaches m s log fun a s' log' => Reaches (f a) s' log' post := by
  simp only [Reaches, wp_bind, List.append_assoc]

/-- Consequence. -/
theorem Reaches.mono (h : Reaches m s log post)
    (hpost : ∀ a s' log', post a s' log' → post' a s' log') : Reaches m s log post' :=
  wp_mono h (fun a s' _ => hpost a s' _) fun _ _ _ => id

theorem Reaches.bind {P : α → σ → List ω → Prop} {post : β → σ → List ω → Prop}
    {f : α → Effect σ ω ε β} (h : Reaches m s log P)
    (hf : ∀ a s' log', P a s' log' → Reaches (f a) s' log' post) :
    Reaches (m >>= f) s log post :=
  reaches_bind f |>.mpr (h.mono hf)

/-- A program that may be skipped. -/
theorem reaches_whenever {post : Unit → σ → List ω → Prop} {c : Prop} [Decidable c]
    {m : Effect σ ω ε Unit} (hm : c → Reaches m s log post) (hskip : ¬c → post () s log) :
    Reaches (whenever c m) s log post := by
  unfold whenever
  split
  · next h => exact hm h
  · next h => exact (reaches_pure ()).mpr (hskip h)

/-- What a run that reaches a condition leaves. -/
theorem Reaches.run (h : Reaches m s log post) :
    ∃ a, (m s).1 = .ok a ∧ post a (m s).2.1 (log ++ (m s).2.2) := by
  unfold Reaches wp at h
  split at h
  · next a _ _ hm => exact ⟨a, by rw [hm], by rwa [hm]⟩
  · cases h

end StonePlus.Lib.Effect
