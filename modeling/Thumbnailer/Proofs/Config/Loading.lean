import Mathlib
import Thumbnailer.Config.GeneratorFile

/-!
# Loading a configuration stops only on an oversized size

A configuration is loaded from a TOML document or from the environment, and the result is a
configuration or a configuration error, unless a size given in mebibytes is too large for a
machine word once multiplied out to bytes: from `2^44` MiB on (`oversized_iff`), the builders'
multiplication overflows and loading stops. That is the only way loading stops, and it does
stop there:

* a cache document stops exactly when it is a cache file one of whose three sizes is oversized
  (`CacheConfig.stopsWhen_ofToml`);
* a generator document stops exactly when it is a generator file whose render mode and cache
  strategy, if given, are known names (an unknown one is reported first, as a configuration
  error) and whose `[cache]` table sets an oversized size (`GeneratorConfig.stopsWhen_ofToml`);
* the environment stops exactly when, reading the cache variables in order, a size variable is
  oversized and every variable read before it is well formed (`EnvOverflows`); the generator's
  own variables add no way to stop (`GeneratorConfig.stopsWhen_fromEnv`).

`StopsWhen B x` says that `x` stops exactly when `B` holds, and then with a multiplication
overflow. Each loader is a chain of `do` steps, one join point per optional key; its lemma goes
through the join points from the last to the first, one `have` each, and the step lemmas here
(`StopsWhen.bind`, `stopsWhen_readThen`, `stopsWhen_wordThen`) say how each kind of step
combines the condition of what follows.

Main statement: `loading_stops_only_on_oversized_sizes`.
-/

namespace Thumbnailer
namespace Config

open Cache

/-- A size in mebibytes whose byte count does not fit a machine word. -/
def Oversized (mb : Nat) : Prop := wordSize ≤ mb * mebibyte

instance (mb : Nat) : Decidable (Oversized mb) := inferInstanceAs (Decidable (_ ≤ _))

/-- Sizes are oversized from `2^44` MiB on. -/
theorem oversized_iff (mb : Nat) : Oversized mb ↔ 2 ^ 44 ≤ mb := by
  unfold Oversized wordSize mebibyte
  simp only [Nat.pow_eq]
  omega

/-- An optional size that is set, to an oversized size. -/
def OversizedSetting (o : Option Nat) : Prop := ∃ mb, o = some mb ∧ Oversized mb

@[simp] theorem oversizedSetting_some (mb : Nat) : OversizedSetting (some mb) ↔ Oversized mb := by
  simp [OversizedSetting]

theorem not_oversizedSetting {o : Option Nat} (h : ∀ mb, o = some mb → False) :
    ¬ OversizedSetting o :=
  fun ⟨mb, hmb, _⟩ => h mb hmb

/-! ### Stopping with an overflow -/

/-- `x` stops with an overflow exactly when `B` holds, and then the overflow is a
multiplication's. -/
def StopsWhen {α : Type} (B : Prop) (x : Except Overflow α) : Prop :=
  ∀ e, x = .error e ↔ e = .mul ∧ B

/-- Loading `x` gives the value `a`: no configuration error, no overflow. -/
def Load.Gives {α : Type} (x : Load α) (a : α) : Prop := x.run = .ok (.ok a)

section Stops

variable {α β : Type}

theorem StopsWhen.congr {B B' : Prop} {x : Except Overflow α} (h : StopsWhen B x)
    (hB : B ↔ B') : StopsWhen B' x :=
  fun e => (h e).trans (and_congr_right fun _ => hB)

theorem StopsWhen.not_of_ok {B : Prop} {x : Except Overflow α} {a : α} (h : StopsWhen B x)
    (hx : x = .ok a) : ¬ B :=
  fun hB => by simpa [hx] using (h .mul).2 ⟨rfl, hB⟩

/-- A computation that stops when `B` does not hold gives a value. -/
theorem StopsWhen.exists_ok {B : Prop} {x : Except Overflow α} (h : StopsWhen B x) (hB : ¬ B) :
    ∃ a, x = .ok a := by
  cases x with
  | error e => exact absurd ((h e).1 rfl).2 hB
  | ok a => exact ⟨a, rfl⟩

theorem stopsWhen_ok (a : α) : StopsWhen False (.ok a : Except Overflow α) := by
  intro e
  simp

/-- **Sequencing**: `x >>= k` stops when `x` does, or when `x` gives a value from which `k`
stops. -/
theorem StopsWhen.bind {A : Prop} {B : α → Prop} {x : Except Overflow α}
    {k : α → Except Overflow β} (hx : StopsWhen A x) (hk : ∀ a, x = .ok a → StopsWhen (B a) (k a)) :
    StopsWhen (A ∨ ∃ a, x = .ok a ∧ B a) (x >>= k) := by
  intro e
  cases x with
  | error e' =>
    obtain ⟨rfl, hA⟩ := (hx e').1 rfl
    have hbind : (Except.error Overflow.mul >>= k) = .error .mul := rfl
    rw [hbind]
    simp [hA, eq_comm]
  | ok a =>
    have hA := hx.not_of_ok rfl
    have hbind : (Except.ok a >>= k) = k a := rfl
    rw [hbind, hk a rfl e]
    simp [hA]

/-- Sequencing with a continuation whose condition does not depend on the value. -/
theorem StopsWhen.bind_const {A B : Prop} {x : Except Overflow α} {k : α → Except Overflow β}
    (hx : StopsWhen A x) (hk : ∀ a, StopsWhen B (k a)) : StopsWhen (A ∨ B) (x >>= k) := by
  refine (hx.bind fun a _ => hk a).congr ⟨fun h => h.imp_right fun ⟨_, _, hB⟩ => hB, fun h => ?_⟩
  by_cases hA : A
  · exact .inl hA
  · obtain ⟨a, ha⟩ := hx.exists_ok hA
    exact .inr ⟨a, ha, h.resolve_left hA⟩

/-- Loading `x >>= k` stops when `x` does, or when `x` gives a value from which `k` stops; a
configuration error from `x` ends loading without stopping. -/
theorem StopsWhen.loadBind {A : Prop} {B : α → Prop} {x : Load α} {k : α → Load β}
    (hx : StopsWhen A x.run) (hk : ∀ a, Load.Gives x a → StopsWhen (B a) (k a).run) :
    StopsWhen (A ∨ ∃ a, Load.Gives x a ∧ B a) (x >>= k).run := by
  intro e
  have hrun : (x >>= k).run = x.run >>= ExceptT.bindCont k := rfl
  rw [hrun]
  rcases hx' : x.run with e' | ce | a
  · obtain ⟨rfl, hA⟩ := (hx e').1 hx'
    have hbind : (Except.error Overflow.mul >>= ExceptT.bindCont k) = .error .mul := rfl
    rw [hbind]
    simp [hA, eq_comm]
  · have hA := hx.not_of_ok hx'
    have hbind : (Except.ok (Except.error ce) >>= ExceptT.bindCont k) = .ok (.error ce) := rfl
    rw [hbind]
    simp [Load.Gives, hx', hA]
  · have hA := hx.not_of_ok hx'
    have hbind : (Except.ok (Except.ok a) >>= ExceptT.bindCont k) = (k a).run := rfl
    rw [hbind, hk a hx' e]
    simp [Load.Gives, hx', hA]

/-- **Reading, then going on**: after a step that never stops, loading stops exactly when the
step gives a value from which what follows stops. -/
theorem stopsWhen_readThen {x : Load α} {k : α → Load β} {B : α → Prop}
    (hx : StopsWhen False x.run) (hk : ∀ a, StopsWhen (B a) (k a).run) :
    StopsWhen (∃ a, Load.Gives x a ∧ B a) (x >>= k).run :=
  (hx.loadBind fun a _ => hk a).congr (iff_of_eq (false_or _))

theorem StopsWhen.map {A : Prop} {x : Except Overflow α} (f : α → β) (h : StopsWhen A x) :
    StopsWhen A (f <$> x) := by
  cases x with
  | error e' =>
    intro e
    have hmap : (f <$> (Except.error e' : Except Overflow α)) = .error e' := rfl
    rw [hmap, ← h e]
    simp
  | ok a => exact (stopsWhen_ok (f a)).congr (iff_false_intro (h.not_of_ok rfl)).symm

theorem Load.run_word (x : Except Overflow α) : (Load.word x).run = Except.ok <$> x := rfl

/-- A step whose arithmetic may overflow stops when its arithmetic does. -/
theorem stopsWhen_word {A : Prop} {x : Except Overflow α} (hx : StopsWhen A x) :
    StopsWhen A (Load.word x).run :=
  hx.map _

/-- **A word step, then going on**: a step whose arithmetic may overflow gives its value or
stops, and no configuration error. -/
theorem stopsWhen_wordThen {A B : Prop} {x : Except Overflow α} {k : α → Load β}
    (hx : StopsWhen A x) (hk : ∀ a, StopsWhen B (k a).run) :
    StopsWhen (A ∨ B) (Load.word x >>= k).run := by
  refine ((stopsWhen_word hx).loadBind fun a _ => hk a).congr
    ⟨fun h => h.imp_right fun ⟨_, _, hB⟩ => hB, fun h => ?_⟩
  by_cases hA : A
  · exact .inl hA
  · obtain ⟨a, ha⟩ := hx.exists_ok hA
    exact .inr ⟨a, by rw [Load.Gives, Load.run_word, ha]; rfl, h.resolve_left hA⟩

theorem stopsWhen_pure (a : α) : StopsWhen False (pure a : Load α).run :=
  stopsWhen_ok _

theorem stopsWhen_fail (ce : ConfigError) : StopsWhen False (Load.fail ce : Load α).run :=
  stopsWhen_ok _

end Stops

/-! ### The steps of loading -/

/-- Multiplying a size out to bytes stops exactly when it is oversized. -/
theorem stopsWhen_bytesOfMb (mb : Nat) : StopsWhen (Oversized mb) (CacheConfig.bytesOfMb mb) := by
  intro e
  by_cases h : mb * mebibyte < wordSize
  · simp [CacheConfig.bytesOfMb, checkedMul, Oversized, h]
  · have hle : wordSize ≤ mb * mebibyte := Nat.le_of_not_lt h
    simp [CacheConfig.bytesOfMb, checkedMul, Oversized, h, hle, eq_comm]

/-- **A size builder stops exactly when its size is oversized**: the three size builders of
the cache configuration multiply out the size and store it, clamped or not. -/
theorem stopsWhen_sizeBuilder {α : Type} (mb : Nat) (g : Nat → α) :
    StopsWhen (Oversized mb) (CacheConfig.bytesOfMb mb >>= fun b => pure (g b)) :=
  ((stopsWhen_bytesOfMb mb).bind_const fun b => stopsWhen_ok (g b)).congr (iff_of_eq (or_false _))

theorem stopsWhen_envValue {α : Type} (env : Env) (key : String) (p : String → Option α) :
    StopsWhen False (envValue env key p).run := by
  unfold envValue
  split
  · exact stopsWhen_pure _
  · split
    · exact stopsWhen_pure _
    · exact stopsWhen_fail _

theorem stopsWhen_envNamed {α : Type} (env : Env) (key : String) (p : String → Option α) :
    StopsWhen False (envNamed env key p).run := by
  unfold envNamed
  split
  · exact stopsWhen_pure _
  · dsimp only
    split
    · exact stopsWhen_pure _
    · exact stopsWhen_fail _

theorem gives_readNamed {α : Type} (key value : String) (p : String → Option α) (a : α) :
    Load.Gives (readNamed key value p) a ↔ p value = some a := by
  unfold readNamed
  split
  · next b h =>
    have hrun : (pure b : Load α).run = .ok (.ok b) := rfl
    rw [Load.Gives, hrun, h]
    simp
  · next h =>
    have hrun : (Load.fail (.invalidValue key value) : Load α).run =
        .ok (.error (.invalidValue key value)) := rfl
    rw [Load.Gives, hrun, h]
    simp

theorem stopsWhen_readNamed {α : Type} (key value : String) (p : String → Option α) :
    StopsWhen False (readNamed key value p).run := by
  unfold readNamed
  split
  · exact stopsWhen_pure _
  · exact stopsWhen_fail _

/-- A name, if given, names something `p` reads. -/
def KnownName {α : Type} (p : String → Option α) (o : Option String) : Prop :=
  ∀ s, o = some s → (p s).isSome

section Keys

variable {γ δ : Type} {B : Prop}

/-- A size key that is set: its builder, then what follows. -/
theorem stopsWhen_sizeSet {k : γ → Except Overflow δ} (hk : ∀ c, StopsWhen B (k c)) (mb : Nat)
    (g : Nat → γ) :
    StopsWhen (OversizedSetting (some mb) ∨ B)
      ((CacheConfig.bytesOfMb mb >>= fun b => pure (g b)) >>= k) :=
  ((stopsWhen_sizeBuilder mb g).bind_const hk).congr (by simp)

/-- A size key that is set, in loading: its builder, then what follows. -/
theorem stopsWhen_wordSizeSet {k : γ → Load δ} (hk : ∀ c, StopsWhen B (k c).run) (mb : Nat)
    (g : Nat → γ) :
    StopsWhen (OversizedSetting (some mb) ∨ B)
      (Load.word (CacheConfig.bytesOfMb mb >>= fun b => pure (g b)) >>= k).run :=
  (stopsWhen_wordThen (stopsWhen_sizeBuilder mb g) hk).congr (by simp)

/-- A size key that is not set: what follows. -/
theorem stopsWhen_sizeUnset {k : γ → Except Overflow δ} (hk : ∀ c, StopsWhen B (k c))
    {o : Option Nat} (ho : ∀ mb, o = some mb → False) (c : γ) :
    StopsWhen (OversizedSetting o ∨ B) (k c) :=
  (hk c).congr (or_iff_right (not_oversizedSetting ho)).symm

/-- A named key that is given: its name is read, then what follows. -/
theorem stopsWhen_nameSet {α : Type} {k : α → Load δ} (hk : ∀ a, StopsWhen B (k a).run)
    (key s : String) (p : String → Option α) :
    StopsWhen (KnownName p (some s) ∧ B) (readNamed key s p >>= k).run :=
  (stopsWhen_readThen (stopsWhen_readNamed key s p) hk).congr
    (by simp [KnownName, gives_readNamed, Option.isSome_iff_exists])

/-- A named key that is not given: what follows. -/
theorem stopsWhen_nameUnset {α : Type} {k : γ → Except Overflow δ} (hk : ∀ c, StopsWhen B (k c))
    {p : String → Option α} {o : Option String} (ho : ∀ s, o = some s → False) (c : γ) :
    StopsWhen (KnownName p o ∧ B) (k c) :=
  (hk c).congr (and_iff_right fun s hs => (ho s hs).elim).symm

/-- A variable read without arithmetic, then what follows, which never stops. -/
theorem stopsWhen_readThen_false {α : Type} {x : Load α} {k : α → Load δ}
    (hx : StopsWhen False x.run) (hk : ∀ a, StopsWhen False (k a).run) :
    StopsWhen False (x >>= k).run :=
  (stopsWhen_readThen hx hk).congr (by simp)

end Keys

/-! ### Documents -/

namespace CacheFile

/-- A cache file sets one of its three sizes to an oversized size. -/
def Overflows (f : CacheFile) : Prop :=
  OversizedSetting f.compressedCacheMb ∨ OversizedSetting f.memoryPoolMb ∨
    OversizedSetting f.pageCacheMb

/-- **Applying a cache file stops exactly when it sets an oversized size.** The quality,
compression switch and item count are applied without arithmetic. -/
theorem stopsWhen_apply (f : CacheFile) (c : CacheConfig) : StopsWhen f.Overflows (f.apply c) := by
  unfold Overflows apply
  extract_lets c₀ done stepPage stepItems stepPool stepSwitch stepQuality
  have hDone : ∀ c, StopsWhen False (done () c) := fun c => stopsWhen_ok c
  have hPage : ∀ c, StopsWhen (OversizedSetting f.pageCacheMb) (stepPage () c) := by
    intro c
    simp only [stepPage]
    refine StopsWhen.congr ?_ (iff_of_eq (or_false _))
    split
    · next mb hmb => rw [hmb]; exact stopsWhen_sizeSet hDone mb _
    · next ho => exact stopsWhen_sizeUnset hDone ho c
  have hItems : ∀ c, StopsWhen (OversizedSetting f.pageCacheMb) (stepItems () c) := by
    intro c
    simp only [stepItems]
    split <;> exact hPage _
  have hPool : ∀ c, StopsWhen (OversizedSetting f.memoryPoolMb ∨ OversizedSetting f.pageCacheMb)
      (stepPool () c) := by
    intro c
    simp only [stepPool]
    split
    · next mb hmb => rw [hmb]; exact stopsWhen_sizeSet hItems mb _
    · next ho => exact stopsWhen_sizeUnset hItems ho c
  have hSwitch : ∀ c, StopsWhen (OversizedSetting f.memoryPoolMb ∨
      OversizedSetting f.pageCacheMb) (stepSwitch () c) := by
    intro c
    simp only [stepSwitch]
    split <;> exact hPool _
  have hQuality : ∀ c, StopsWhen (OversizedSetting f.memoryPoolMb ∨
      OversizedSetting f.pageCacheMb) (stepQuality () c) := by
    intro c
    simp only [stepQuality]
    split <;> exact hSwitch _
  split
  · next mb hmb => rw [hmb]; exact stopsWhen_sizeSet hQuality mb _
  · next ho => exact stopsWhen_sizeUnset hQuality ho c₀

end CacheFile

/-- **A cache document stops exactly when it is a cache file that sets an oversized size.** -/
theorem CacheConfig.stopsWhen_ofToml (s : String) :
    StopsWhen (∃ f, (Toml.parse s >>= CacheFile.read) = some f ∧ f.Overflows)
      (CacheConfig.ofToml s).run := by
  unfold CacheConfig.ofToml CacheConfig.decode Toml.library
  dsimp only
  split
  · next f hf =>
    refine (stopsWhen_word (CacheFile.stopsWhen_apply f {})).congr ?_
    simp [hf]
  · next ho =>
    exact (stopsWhen_fail .parse).congr ⟨False.elim, fun ⟨f, hf, _⟩ => ho f hf⟩

namespace GeneratorFile

/-- A generator file stops loading: its render mode and cache strategy, if given, are known
names (an unknown one is reported first), and its cache table sets an oversized size. -/
def Overflows (f : GeneratorFile) : Prop :=
  KnownName readRenderMode f.renderMode ∧ KnownName readStrategy f.cacheStrategy ∧
    ∃ cf, f.cache = some cf ∧ cf.Overflows

/-- **Applying a generator file stops exactly when its names are known and its cache table
sets an oversized size.** Every other key is applied without arithmetic. -/
theorem stopsWhen_apply (f : GeneratorFile) (c : GeneratorConfig) :
    StopsWhen f.Overflows (f.apply c).run := by
  unfold Overflows apply
  extract_lets c₀ done stepCache stepRatio stepAdaptive stepInterval stepBatch stepStrategy
    stepMode stepGpu stepRetries stepJobs stepQuality c₁
  have hDone : ∀ c, StopsWhen False (done () c).run := fun c => stopsWhen_pure c
  have hCache : ∀ c, StopsWhen (∃ cf, f.cache = some cf ∧ cf.Overflows) (stepCache () c).run := by
    intro c
    simp only [stepCache]
    split
    · next cf hcf =>
      refine (stopsWhen_wordThen (cf.stopsWhen_apply c.cache) fun r => hDone _).congr ?_
      simp [hcf]
    · next ho => exact (hDone c).congr ⟨False.elim, fun ⟨cf, hcf, _⟩ => ho cf hcf⟩
  -- the ratio, the adaptive switch, the interval and the batch size pass the condition on
  have hRatio : ∀ c, StopsWhen _ (stepRatio () c).run := fun c => by
    simp only [stepRatio]
    split <;> exact hCache _
  have hAdaptive : ∀ c, StopsWhen _ (stepAdaptive () c).run := fun c => by
    simp only [stepAdaptive]
    split <;> exact hRatio _
  have hInterval : ∀ c, StopsWhen _ (stepInterval () c).run := fun c => by
    simp only [stepInterval]
    split <;> exact hAdaptive _
  have hBatch : ∀ c, StopsWhen _ (stepBatch () c).run := fun c => by
    simp only [stepBatch]
    split <;> exact hInterval _
  have hStrategy : ∀ c, StopsWhen (KnownName readStrategy f.cacheStrategy ∧
      ∃ cf, f.cache = some cf ∧ cf.Overflows) (stepStrategy () c).run := by
    intro c
    simp only [stepStrategy]
    split
    · next s hs => rw [hs]; exact stopsWhen_nameSet (fun _ => hBatch _) _ s readStrategy
    · next ho => exact stopsWhen_nameUnset hBatch ho c
  have hMode : ∀ c, StopsWhen (KnownName readRenderMode f.renderMode ∧
      KnownName readStrategy f.cacheStrategy ∧ ∃ cf, f.cache = some cf ∧ cf.Overflows)
      (stepMode () c).run := by
    intro c
    simp only [stepMode]
    split
    · next s hs => rw [hs]; exact stopsWhen_nameSet (fun _ => hStrategy _) _ s readRenderMode
    · next ho => exact stopsWhen_nameUnset hStrategy ho c
  -- the GPU switch, the retries, the jobs and the quality pass the condition on
  have hGpu : ∀ c, StopsWhen _ (stepGpu () c).run := fun c => by
    simp only [stepGpu]
    split <;> exact hMode _
  have hRetries : ∀ c, StopsWhen _ (stepRetries () c).run := fun c => by
    simp only [stepRetries]
    split <;> exact hGpu _
  have hJobs : ∀ c, StopsWhen _ (stepJobs () c).run := fun c => by
    simp only [stepJobs]
    split <;> exact hRetries _
  have hQuality : ∀ c, StopsWhen _ (stepQuality () c).run := fun c => by
    simp only [stepQuality]
    split <;> exact hJobs _
  split <;> exact hQuality _

end GeneratorFile

/-- **A generator document stops exactly when it is a generator file with known names whose
cache table sets an oversized size.** -/
theorem GeneratorConfig.stopsWhen_ofToml (s : String) :
    StopsWhen (∃ f, (Toml.parse s >>= GeneratorFile.read) = some f ∧ f.Overflows)
      (GeneratorConfig.ofToml s).run := by
  unfold GeneratorConfig.ofToml GeneratorConfig.decode Toml.library
  dsimp only
  split
  · next f hf =>
    refine (GeneratorFile.stopsWhen_apply f {}).congr ?_
    simp [hf]
  · next ho =>
    exact (stopsWhen_fail .parse).congr ⟨False.elim, fun ⟨f, hf, _⟩ => ho f hf⟩

/-! ### The environment -/

/-- The cache variables of an environment stop loading: read in order, a size variable is set
to an oversized size, and every variable read before it is well formed. -/
def EnvOverflows (env : Env) : Prop :=
  ∃ o₁, Load.Gives (envWord env "READIUM_COMPRESSED_CACHE_MB") o₁ ∧ (OversizedSetting o₁ ∨
    ∃ q, Load.Gives (envByte env "READIUM_COMPRESSION_QUALITY") q ∧
    ∃ b, Load.Gives (envBool env "READIUM_COMPRESSION") b ∧
    ∃ o₂, Load.Gives (envWord env "READIUM_MEMORY_POOL_MB") o₂ ∧ (OversizedSetting o₂ ∨
    ∃ n, Load.Gives (envWord env "READIUM_PAGE_CACHE_ITEMS") n ∧
    ∃ o₃, Load.Gives (envWord env "READIUM_PAGE_CACHE_MB") o₃ ∧ OversizedSetting o₃))

/-- **The cache variables stop loading exactly as `EnvOverflows` says.** -/
theorem CacheConfig.stopsWhen_fromEnv (env : Env) :
    StopsWhen (EnvOverflows env) (CacheConfig.fromEnv env).run := by
  unfold EnvOverflows CacheConfig.fromEnv
  extract_lets c₀ done stepPage stepItems stepPool stepSwitch stepQuality
  have hDone : ∀ c, StopsWhen False (done () c).run := fun c => stopsWhen_pure c
  have hPage : ∀ c, StopsWhen (∃ o₃, Load.Gives (envWord env "READIUM_PAGE_CACHE_MB") o₃ ∧
      OversizedSetting o₃) (stepPage () c).run := by
    intro c
    simp only [stepPage]
    refine stopsWhen_readThen (stopsWhen_envValue _ _ _) fun o => ?_
    refine StopsWhen.congr ?_ (iff_of_eq (or_false _))
    split
    · next mb => exact stopsWhen_wordSizeSet hDone mb _
    · next ho => exact stopsWhen_sizeUnset hDone ho c
  have hItems : ∀ c, StopsWhen (∃ n, Load.Gives (envWord env "READIUM_PAGE_CACHE_ITEMS") n ∧
      ∃ o₃, Load.Gives (envWord env "READIUM_PAGE_CACHE_MB") o₃ ∧ OversizedSetting o₃)
      (stepItems () c).run := by
    intro c
    simp only [stepItems]
    refine stopsWhen_readThen (stopsWhen_envValue _ _ _) fun o => ?_
    split <;> exact hPage _
  have hPool : ∀ c, StopsWhen (∃ o₂, Load.Gives (envWord env "READIUM_MEMORY_POOL_MB") o₂ ∧
      (OversizedSetting o₂ ∨ ∃ n, Load.Gives (envWord env "READIUM_PAGE_CACHE_ITEMS") n ∧
        ∃ o₃, Load.Gives (envWord env "READIUM_PAGE_CACHE_MB") o₃ ∧ OversizedSetting o₃))
      (stepPool () c).run := by
    intro c
    simp only [stepPool]
    refine stopsWhen_readThen (stopsWhen_envValue _ _ _) fun o => ?_
    split
    · next mb => exact stopsWhen_wordSizeSet hItems mb _
    · next ho => exact stopsWhen_sizeUnset hItems ho c
  have hSwitch : ∀ c, StopsWhen (∃ b, Load.Gives (envBool env "READIUM_COMPRESSION") b ∧
      ∃ o₂, Load.Gives (envWord env "READIUM_MEMORY_POOL_MB") o₂ ∧
        (OversizedSetting o₂ ∨ ∃ n, Load.Gives (envWord env "READIUM_PAGE_CACHE_ITEMS") n ∧
          ∃ o₃, Load.Gives (envWord env "READIUM_PAGE_CACHE_MB") o₃ ∧ OversizedSetting o₃))
      (stepSwitch () c).run := by
    intro c
    simp only [stepSwitch]
    refine stopsWhen_readThen (stopsWhen_envValue _ _ _) fun o => ?_
    split <;> exact hPool _
  have hQuality : ∀ c, StopsWhen (∃ q, Load.Gives (envByte env "READIUM_COMPRESSION_QUALITY") q ∧
      ∃ b, Load.Gives (envBool env "READIUM_COMPRESSION") b ∧
      ∃ o₂, Load.Gives (envWord env "READIUM_MEMORY_POOL_MB") o₂ ∧
        (OversizedSetting o₂ ∨ ∃ n, Load.Gives (envWord env "READIUM_PAGE_CACHE_ITEMS") n ∧
          ∃ o₃, Load.Gives (envWord env "READIUM_PAGE_CACHE_MB") o₃ ∧ OversizedSetting o₃))
      (stepQuality () c).run := by
    intro c
    simp only [stepQuality]
    refine stopsWhen_readThen (stopsWhen_envValue _ _ _) fun o => ?_
    split <;> exact hSwitch _
  refine stopsWhen_readThen (stopsWhen_envValue _ _ _) fun o => ?_
  split
  · next mb => exact stopsWhen_wordSizeSet hQuality mb _
  · next ho => exact stopsWhen_sizeUnset hQuality ho c₀

/-- **The generator's variables add no way to stop**: loading a generator configuration from
the environment stops exactly when its cache layer does. -/
theorem GeneratorConfig.stopsWhen_fromEnv (env : Env) :
    StopsWhen (EnvOverflows env) (GeneratorConfig.fromEnv env).run := by
  unfold GeneratorConfig.fromEnv
  extract_lets done stepRatio stepAdaptive stepStrategy stepMode stepGpu stepRetries stepJobs
    stepQuality
  -- after the cache layer, every variable is read without arithmetic
  have hDone : ∀ c, StopsWhen False (done () c).run := fun c => stopsWhen_pure c
  have hRatio : ∀ c, StopsWhen False (stepRatio () c).run := fun c =>
    stopsWhen_readThen_false (stopsWhen_envValue _ _ _) fun _ => by split <;> exact hDone _
  have hAdaptive : ∀ c, StopsWhen False (stepAdaptive () c).run := fun c =>
    stopsWhen_readThen_false (stopsWhen_envValue _ _ _) fun _ => by split <;> exact hRatio _
  have hStrategy : ∀ c, StopsWhen False (stepStrategy () c).run := fun c =>
    stopsWhen_readThen_false (stopsWhen_envNamed _ _ _) fun _ => by split <;> exact hAdaptive _
  have hMode : ∀ c, StopsWhen False (stepMode () c).run := fun c =>
    stopsWhen_readThen_false (stopsWhen_envNamed _ _ _) fun _ => by split <;> exact hStrategy _
  have hGpu : ∀ c, StopsWhen False (stepGpu () c).run := fun c =>
    stopsWhen_readThen_false (stopsWhen_envValue _ _ _) fun _ => by split <;> exact hMode _
  have hRetries : ∀ c, StopsWhen False (stepRetries () c).run := fun c =>
    stopsWhen_readThen_false (stopsWhen_envValue _ _ _) fun _ => by split <;> exact hGpu _
  have hJobs : ∀ c, StopsWhen False (stepJobs () c).run := fun c =>
    stopsWhen_readThen_false (stopsWhen_envValue _ _ _) fun _ => by split <;> exact hRetries _
  have hQuality : ∀ c, StopsWhen False (stepQuality () c).run := fun c =>
    stopsWhen_readThen_false (stopsWhen_envValue _ _ _) fun _ => by split <;> exact hJobs _
  refine (@StopsWhen.loadBind _ _ _ (fun _ => False) _ _ (CacheConfig.stopsWhen_fromEnv env)
    fun cache _ => ?_).congr (by simp)
  exact stopsWhen_readThen_false (stopsWhen_envValue _ _ _) fun _ =>
    stopsWhen_readThen_false (stopsWhen_envValue _ _ _) fun _ => by split <;> exact hQuality _

/-- **Loading a configuration stops only on an oversized size, and always does there.** For
every document and every environment, loading a cache or a generator configuration gives a
configuration or a configuration error, except that it stops, with a multiplication overflow,
exactly when a size in mebibytes that it gets to apply is `2^44` or more: a cache document that
is a cache file with such a size; a generator document that is a generator file with known
names and such a size in its cache table; an environment whose cache variables, read in order,
reach such a size variable. -/
theorem loading_stops_only_on_oversized_sizes (s : String) (env : Env) :
    StopsWhen (∃ f, (Toml.parse s >>= CacheFile.read) = some f ∧ f.Overflows)
        (CacheConfig.ofToml s).run ∧
      StopsWhen (∃ f, (Toml.parse s >>= GeneratorFile.read) = some f ∧ f.Overflows)
        (GeneratorConfig.ofToml s).run ∧
      StopsWhen (EnvOverflows env) (CacheConfig.fromEnv env).run ∧
      StopsWhen (EnvOverflows env) (GeneratorConfig.fromEnv env).run :=
  ⟨CacheConfig.stopsWhen_ofToml s, GeneratorConfig.stopsWhen_ofToml s,
    CacheConfig.stopsWhen_fromEnv env, GeneratorConfig.stopsWhen_fromEnv env⟩

/-- A cache document asking for a compressed cache of `2^44` MiB stops loading with a
multiplication overflow. -/
theorem oversized_compressed_cache_stops_loading :
    (CacheConfig.ofToml "compressed_cache_mb = 17592186044416").run = .error .mul := by
  have hread : (Toml.parse "compressed_cache_mb = 17592186044416" >>= CacheFile.read) =
      some { compressedCacheMb := some 17592186044416 } := by
    decide +kernel
  unfold CacheConfig.ofToml CacheConfig.decode Toml.library
  dsimp only
  rw [hread]
  rfl

end Config
end Thumbnailer
