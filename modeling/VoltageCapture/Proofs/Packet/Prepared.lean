import VoltageCapture.Proofs.Packet.AllOrNothing
import VoltageCapture.Proofs.Packet.Random
import VoltageCapture.Proofs.Packet.Recorded

/-!
# Models that are prepared before they are used

What a model has to be before it may be used is for the model to say; that a header which it
accepts makes it so is all that a generator counts on (`SignalModel.Prepares`).  A generator is
not configured before its model is ready, and no operation changes that
(`isPrepared_afterOperations`).

Two facts about what reaches a model follow from this by way of its log.  Every use of it comes
after a header that it has accepted (`Orderly.exists_accepted`), and a random signal that is used
has its sequences (`RandomSignal.prepares_hasSequences`).
-/

namespace VoltageCapture

open PacketGenerator (Operation Purpose Buffers Reply)

/-! ## What a model has to be configured for -/

/-- A model of which `base` holds is made `ready` by a header that it accepts.  Neither its use nor
a header that it refuses undoes that. -/
structure SignalModel.Prepares {M : Type} [SignalModel M] (base ready : M → Prop) : Prop
    extends SignalModel.Keeps ready where
  base_of_ready : ∀ {model : M}, ready model → base model
  ready_of_accepted : ∀ {model configured : M} {header : Header} {layout : PacketLayout},
    base model → SignalModel.configure model header layout = (.ok (), configured) →
      ready configured
  base_of_refused : ∀ {model refused : M} {header : Header} {layout : PacketLayout}
    {error : Error}, base model →
      SignalModel.configure model header layout = (.error error, refused) → base refused
  ready_of_refused : ∀ {model refused : M} {header : Header} {layout : PacketLayout}
    {error : Error}, ready model →
      SignalModel.configure model header layout = (.error error, refused) → ready refused

namespace PacketGenerator

variable {M : Type} [SignalModel M] {generator after : PacketGenerator M}
  {operation : Operation M} {reply : Reply} {base ready : M → Prop}

/-- The generator is not configured before its model is ready. -/
structure IsPrepared (base ready : M → Prop) (generator : PacketGenerator M) : Prop where
  base : base generator.model
  ready : ∀ {geometry}, generator.geometry? = some geometry → ready generator.model

variable (hprepares : SignalModel.Prepares base ready)

include hprepares

theorem Step.isPrepared (hstep : generator.Step operation reply after)
    (hgenerator : generator.IsPrepared base ready)
    (hbase : ∀ model, operation = .setModel model → base model) : after.IsPrepared base ready := by
  cases hstep with
  | accept hconfigure hpackets hmodel =>
      have hready := hprepares.ready_of_accepted hgenerator.base hmodel
      exact ⟨hprepares.base_of_ready hready, fun _ => hready⟩
  | refuse hmodel =>
      rcases hmodel with rfl | hrefused
      · exact ⟨hgenerator.base, hgenerator.ready⟩
      · exact ⟨hprepares.base_of_refused hgenerator.base hrefused,
          fun hgeometry => hprepares.ready_of_refused (hgenerator.ready hgeometry) hrefused⟩
  | replace model => exact ⟨hbase model rfl, nofun⟩
  | seek | reset | reject => exact ⟨hgenerator.base, hgenerator.ready⟩
  | @process buffers _ _ purpose hcheck hanswer =>
      have hgeometry := geometry_of_check_eq_ok hcheck
      have hcall := tracks_afterCall hprepares.toKeeps
        ⟨rfl, hgeometry, hgenerator.ready hgeometry⟩ (buffers.call purpose)
      rw [(of_check_eq_ok hcheck purpose).2] at hcall
      exact ⟨hprepares.base_of_ready hcall.model, fun _ => hcall.model⟩

theorem isPrepared_afterOperations (hgenerator : generator.IsPrepared base ready)
    (operations : List (Operation M))
    (hbase : ∀ model, .setModel model ∈ operations → base model) :
    (generator.afterOperations operations).IsPrepared base ready := by
  induction operations generalizing generator with
  | nil => exact hgenerator
  | cons operation operations ih =>
      apply ih
      · exact (step generator operation).isPrepared hprepares hgenerator fun model hmodel =>
          hbase model (hmodel ▸ List.mem_cons_self)
      · exact fun model hmem => hbase model (List.mem_cons_of_mem _ hmem)

end PacketGenerator

/-! ## What reaches a model -/

section Recorded

variable {M : Type} {base ready : M → Prop}

/-- Every use of a model has found it ready. -/
def UsedReady (ready : M → Prop) (log : List (M × ModelRequest)) : Prop :=
  ∀ entry ∈ log, entry.2.IsUse → ready entry.1

theorem UsedReady.after {recorded : Recorded M} (hlog : UsedReady ready recorded.log)
    (request : ModelRequest) (model : M) (hready : request.IsUse → ready recorded.model) :
    UsedReady ready (recorded.after request model).log :=
  List.forall_mem_append.mpr ⟨hlog, List.forall_mem_singleton.mpr hready⟩

variable [SignalModel M]

theorem eq_nil_or_of_snoc_eq {α : Type} {log before after : List α} {last entry : α}
    (heq : log ++ [last] = before ++ entry :: after) :
    (log = before ∧ last = entry ∧ after = []) ∨
      ∃ rest, after = rest ++ [last] ∧ log = before ++ entry :: rest := by
  rcases List.eq_nil_or_concat after with rfl | ⟨rest, other, rfl⟩
  · obtain ⟨hlog, hlast⟩ := List.append_inj' heq rfl
    exact Or.inl ⟨hlog, (List.cons.inj hlast).1, rfl⟩
  · rw [List.concat_eq_append] at heq ⊢
    rw [← List.cons_append, ← List.append_assoc] at heq
    obtain ⟨hlog, hlast⟩ := List.append_inj' heq rfl
    exact Or.inr ⟨rest, by rw [hlast], hlog⟩

/-- The model has accepted a header. -/
def Accepted (entry : M × ModelRequest) : Prop :=
  ∃ header layout, entry.2 = .configure header layout ∧
    (SignalModel.configure entry.1 header layout).1 = .ok ()

/-- A model is used only after it has accepted a header. -/
inductive Orderly : List (M × ModelRequest) → Prop
  | nil : Orderly []
  | configure {log : List (M × ModelRequest)} (hlog : Orderly log) (model : M) (header : Header)
      (layout : PacketLayout) : Orderly (log ++ [(model, .configure header layout)])
  | use {log : List (M × ModelRequest)} (hlog : Orderly log)
      (haccepted : ∃ earlier ∈ log, Accepted earlier) (entry : M × ModelRequest) :
      Orderly (log ++ [entry])

/-- Anywhere in the log, also within one operation. -/
theorem Orderly.exists_accepted {log : List (M × ModelRequest)} (hlog : Orderly log)
    {before after : List (M × ModelRequest)} {entry : M × ModelRequest}
    (hsplit : log = before ++ entry :: after) (huse : entry.2.IsUse) :
    ∃ earlier ∈ before, Accepted earlier := by
  induction hlog generalizing after with
  | nil => exact absurd hsplit (by simp)
  | configure hlog model header layout ih =>
      rcases eq_nil_or_of_snoc_eq hsplit with ⟨-, rfl, -⟩ | ⟨rest, -, hrest⟩
      · exact absurd huse id
      · exact ih hrest
  | use hlog haccepted entry ih =>
      rcases eq_nil_or_of_snoc_eq hsplit with ⟨rfl, -, -⟩ | ⟨rest, -, hrest⟩
      · exact haccepted
      · exact ih hrest

theorem Orderly.use_ready {recorded : Recorded M} {model : M} (request : ModelRequest)
    (hready : Orderly recorded.log ∧ ∃ earlier ∈ recorded.log, Accepted earlier) :
    Orderly (recorded.after request model).log ∧
      ∃ earlier ∈ (recorded.after request model).log, Accepted earlier := by
  obtain ⟨hlog, earlier, hmem, haccepted⟩ := hready
  exact ⟨.use hlog ⟨earlier, hmem, haccepted⟩ _, earlier, List.mem_append_left _ hmem, haccepted⟩

theorem Recorded.prepares_orderly :
    SignalModel.Prepares (fun recorded : Recorded M => Orderly recorded.log)
      (fun recorded => Orderly recorded.log ∧ ∃ earlier ∈ recorded.log, Accepted earlier) where
  fill _ _ _ hready := Orderly.use_ready _ hready
  test _ _ _ hready := Orderly.use_ready _ hready
  base_of_ready := And.left
  ready_of_accepted {recorded configured header layout} hlog haccepted := by
    obtain ⟨hok, rfl⟩ := Prod.mk.inj haccepted
    exact ⟨.configure hlog _ header layout, _, List.mem_append_right _ (List.mem_singleton_self _),
      header, layout, rfl, hok⟩
  base_of_refused hlog hrefused := by
    obtain ⟨-, rfl⟩ := Prod.mk.inj hrefused
    exact .configure hlog _ _ _
  ready_of_refused hready hrefused := by
    obtain ⟨-, rfl⟩ := Prod.mk.inj hrefused
    exact Orderly.use_ready _ hready

/-- A model that is not used before it is ready has a log that says so. -/
theorem SignalModel.Prepares.recorded (hprepares : SignalModel.Prepares base ready) :
    SignalModel.Prepares
      (fun recorded : Recorded M => base recorded.model ∧ UsedReady ready recorded.log)
      (fun recorded => ready recorded.model ∧ UsedReady ready recorded.log) where
  fill region packet buffer hready :=
    ⟨hprepares.fill region packet buffer hready.1, hready.2.after _ _ fun _ => hready.1⟩
  test region packet buffer hready :=
    ⟨hprepares.test region packet buffer hready.1, hready.2.after _ _ fun _ => hready.1⟩
  base_of_ready hready := ⟨hprepares.base_of_ready hready.1, hready.2⟩
  ready_of_accepted {recorded configured header layout} hbase haccepted := by
    obtain ⟨hok, rfl⟩ := Prod.mk.inj haccepted
    exact ⟨hprepares.ready_of_accepted hbase.1 (Prod.ext hok rfl), hbase.2.after _ _ False.elim⟩
  base_of_refused {recorded refused header layout error} hbase hrefused := by
    obtain ⟨herror, rfl⟩ := Prod.mk.inj hrefused
    exact ⟨hprepares.base_of_refused hbase.1 (Prod.ext herror rfl), hbase.2.after _ _ False.elim⟩
  ready_of_refused {recorded refused header layout error} hready hrefused := by
    obtain ⟨herror, rfl⟩ := Prod.mk.inj hrefused
    exact ⟨hprepares.ready_of_refused hready.1 (Prod.ext herror rfl),
      hready.2.after _ _ False.elim⟩

end Recorded

/-! ## Random signals -/

/-- A random signal, if the model is one, has its sequences. -/
def HasSequences {N : Type} : RandomSignal ⊕ N → Prop
  | .inl signal => signal.sequences?.isSome
  | .inr _ => True

theorem RandomSignal.isSome_fill {signal : RandomSignal} (hready : signal.sequences?.isSome)
    (region : Region) (packet : Nat) (buffer : Bytes) :
    (signal.fill region packet buffer).2.sequences?.isSome := by
  obtain ⟨sequences, hsequences⟩ := Option.isSome_iff_exists.mp hready
  simp only [fill, hsequences]
  rfl

theorem RandomSignal.isSome_test {signal : RandomSignal} (hready : signal.sequences?.isSome)
    (region : Region) (packet : Nat) (buffer : Bytes) :
    (signal.test region packet buffer).2.sequences?.isSome := by
  obtain ⟨sequences, hsequences⟩ := Option.isSome_iff_exists.mp hready
  simp only [test, hsequences]
  rfl

theorem RandomSignal.prepares_hasSequences {N : Type} [SignalModel N] :
    SignalModel.Prepares (fun _ => True) (HasSequences (N := N)) where
  fill {model} region packet buffer hready := by
    cases model with
    | inl signal => exact isSome_fill hready region packet buffer
    | inr other => trivial
  test {model} region packet buffer hready := by
    cases model with
    | inl signal => exact isSome_test hready region packet buffer
    | inr other => trivial
  base_of_ready _ := trivial
  ready_of_accepted {model configured header layout} _ haccepted := by
    cases model with
    | inl signal =>
        obtain ⟨hok, rfl⟩ := Prod.mk.inj haccepted
        have hsignal : SignalModel.configure signal header layout =
            (.ok (), (SignalModel.configure signal header layout).2) := Prod.ext hok rfl
        obtain ⟨_, -, sequences, hconfigured, -⟩ := configure_eq_ok hsignal
        show (SignalModel.configure signal header layout).2.sequences?.isSome
        rw [hconfigured]
        rfl
    | inr other =>
        obtain ⟨-, rfl⟩ := Prod.mk.inj haccepted
        trivial
  base_of_refused _ _ := trivial
  ready_of_refused {model refused header layout error} hready hrefused := by
    cases model with
    | inl signal =>
        obtain ⟨herror, rfl⟩ := Prod.mk.inj hrefused
        have hsame : (SignalModel.configure signal header layout).2 = signal :=
          steadfast (Prod.ext herror rfl)
        show (SignalModel.configure signal header layout).2.sequences?.isSome
        rw [hsame]
        exact hready
    | inr other =>
        obtain ⟨-, rfl⟩ := Prod.mk.inj hrefused
        trivial

namespace PacketGenerator

theorem isPrepared_recordedAfter {M : Type} [SignalModel M] {base ready : Recorded M → Prop}
    (hprepares : SignalModel.Prepares base ready) (hfresh : ∀ model, base (.fresh model))
    (layout : PacketLayout) (model : M) (operations : List (Operation M)) :
    (recordedAfter layout model operations).IsPrepared base ready := by
  have hstart : (make layout (Recorded.fresh model)).IsPrepared base ready :=
    ⟨hfresh model, nofun⟩
  apply isPrepared_afterOperations hprepares hstart
  intro recorded hmem
  obtain ⟨operation, -, heq⟩ := List.mem_map.mp hmem
  cases operation with
  | setModel model =>
      obtain rfl : Recorded.fresh model = recorded := Operation.setModel.inj heq
      exact hfresh model
  | configure header | seek packet | reset | process purpose buffers =>
      simp [Operation.map] at heq

end PacketGenerator

end VoltageCapture
