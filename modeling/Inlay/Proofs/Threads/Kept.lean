import Inlay.Proofs.Scene.Erasing
import Inlay.Proofs.Scene.Reliable
import Inlay.Proofs.Threads.Present
/-!
A canvas among threads that take the focus for others. While it may not be drawn it is blank, unless
the call that took the focus is still to erase it: it is registered when the focus is granted, and
who grants it keeps the update lock until all others are erased. A blank canvas stays blank until it
is painted, and erasing it once more writes no more than a command.
-/

namespace Inlay

/-- What erasing a single row takes. -/
def Printer.eraseLine : Text := Cursor.sequences [.clearLine]

/-- Whether a printer has nothing to erase. -/
def Printer.IsBlank (p : Printer) : Prop := p = { width := p.width, style := p.style }

theorem Printer.isBlank_emptied_clear (p : Printer) : p.clear.emptied.IsBlank := rfl

/-- Erasing a blank frame is one command, or nothing where the width is unknown. -/
theorem Printer.IsBlank.frame_clear {p : Printer} (blank : p.IsBlank) :
    p.clear.frame = if p.width = 0 then [] else eraseLine := by
  rw [blank]
  split
  · rename_i unknown
    exact frame_clear_of_unknown unknown
  · rename_i known
    rw [frame_clear_of_known known Nat.one_ne_zero]
    rfl

namespace Canvas

variable {c : Canvas}

theorem printer_eraseUnlessClosed (opened : c.closed = false) {p : Printer}
    (hp : c.printer = some p) : c.eraseUnlessClosed.2.printer = some p.clear.emptied := by
  rw [eraseUnlessClosed_of_printer opened hp, printer_flush]

theorem isBlank_eraseUnlessClosed (opened : c.closed = false) (env : Environment) :
    (c.eraseUnlessClosed.2.printerIn env).IsBlank := by
  cases hp : c.printer with
  | none =>
      rw [eraseUnlessClosed, opened, if_neg Bool.false_ne_true, erase, hp]
      rw [printerIn_of_none hp]
      rfl
  | some p =>
      rw [printerIn_of_some (printer_eraseUnlessClosed opened hp)]
      exact p.isBlank_emptied_clear

theorem sink_eraseUnlessClosed_of_blank {p : Printer} (hp : c.printer = some p)
    (blank : p.IsBlank) :
    c.eraseUnlessClosed.2.sink = c.sink ∨
      c.eraseUnlessClosed.2.sink = (c.sink.write Printer.eraseLine).2 := by
  cases opened : c.closed with
  | true =>
      rw [eraseUnlessClosed_of_closed opened]
      exact .inl rfl
  | false =>
      rw [eraseUnlessClosed_of_printer opened hp, flush, blank.frame_clear, Printer.width_clear]
      split
      · exact .inl rfl
      · exact .inr rfl

end Canvas

namespace Scene

variable {s s' s'' : Scene} {c c' : CanvasRef}

/-- Whether nothing of a canvas is on screen, as far as its printer knows. -/
def Blank (s : Scene) (c : CanvasRef) : Prop := ∃ p, s.printer c = some p ∧ p.IsBlank

theorem Blank.size (blank : s.Blank c) : (s.printer c).map Printer.size = some ⟨1, 0⟩ := by
  obtain ⟨p, hp, hblank⟩ := blank
  rw [hp, hblank]
  rfl

theorem printer_eq_face? (s : Scene) (c : CanvasRef) :
    s.printer c = (s.face? c).map Face.printer := by
  rw [printer, face?, Option.map_map]
  rfl

theorem sink?_eq_face? (s : Scene) (c : CanvasRef) : s.sink? c = (s.face? c).map Face.sink := by
  rw [sink?, face?, Option.map_map]
  rfl

theorem Blank.of_face (blank : s.Blank c) (face : s'.face? c = s.face? c) : s'.Blank c := by
  rw [Blank, printer_eq_face?, face, ← printer_eq_face?]
  exact blank

/-- A canvas that is blank stays so, and nothing is written to it but erasures. -/
def Still (c : CanvasRef) (s s' : Scene) : Prop :=
  s.Blank c → s'.Blank c ∧
    ∃ k, s'.sink? c = (s.sink? c).map fun sink =>
      sink.attempts (List.replicate k Printer.eraseLine)

namespace Still

theorem of_face (face : s'.face? c = s.face? c) : Still c s s' := by
  refine fun blank => ⟨blank.of_face face, 0, ?_⟩
  rw [sink?_eq_face?, face, ← sink?_eq_face?]
  exact Option.map_id'.symm

@[refl] theorem refl (c : CanvasRef) (s : Scene) : Still c s s :=
  of_face rfl

theorem trans (h : Still c s s') (h' : Still c s' s'') : Still c s s'' := by
  intro blank
  obtain ⟨blank', k, hsink⟩ := h blank
  obtain ⟨blank'', k', hsink'⟩ := h' blank'
  refine ⟨blank'', k + k', ?_⟩
  rw [hsink', hsink, Option.map_map, List.replicate_add]
  congr 1
  funext sink
  exact (Sink.attempts_append sink _ _).symm

end Still

theorem blank_eraseUnlessClosed (here : c < s.canvases.size) (opened : s.isClosed c = false) :
    (s.eraseUnlessClosed c).2.Blank c := by
  have he := Array.getElem?_eq_getElem here
  rw [isClosed_of_getElem? he] at opened
  refine ⟨_, ?_, Canvas.isBlank_eraseUnlessClosed opened s.env⟩
  rw [printer, canvases_eraseUnlessClosed_self he, Option.map_some,
    (sameStanding_eraseUnlessClosed s c).env]

theorem still_eraseUnlessClosed (here : c < s.canvases.size) (opened : s.isClosed c = false) :
    Still c s (s.eraseUnlessClosed c).2 := by
  refine fun blank => ⟨blank_eraseUnlessClosed here opened, ?_⟩
  have he := Array.getElem?_eq_getElem here
  obtain ⟨p, hprinter, hblank⟩ := blank
  rw [sink?, canvases_eraseUnlessClosed_self he, sink?, he]
  rw [printer, he, Option.map_some, Option.some.injEq] at hprinter
  cases hp : s.canvases[c].canvas.printer with
  | none =>
      refine ⟨0, ?_⟩
      rw [Option.map_some, Canvas.eraseUnlessClosed, Canvas.erase, hp, ite_self]
      rfl
  | some p' =>
      rw [Canvas.printerIn_of_some hp] at hprinter
      subst hprinter
      rcases Canvas.sink_eraseUnlessClosed_of_blank hp hblank with hsink | hsink
      · exact ⟨0, congrArg some hsink⟩
      · exact ⟨1, congrArg some hsink⟩

def handlesOf (s : Scene) (c : CanvasRef) : Nat := (s.canvases[c]?.map (·.handles)).getD 0

theorem handlesOf_of_canvases (h : s'.canvases = s.canvases) (c : CanvasRef) :
    s'.handlesOf c = s.handlesOf c := by
  rw [handlesOf, h, handlesOf]

theorem isAlive_iff : s.isAlive c = true ↔ 0 < s.handlesOf c := by
  rw [isAlive, handlesOf]
  cases s.canvases[c]? with
  | none => simp
  | some e => simp

theorem SameStanding.handlesOf (h : SameStanding s s') (c : CanvasRef) :
    s'.handlesOf c = s.handlesOf c := by
  have hstanding := congrArg (Option.map Standing.handles) (h.standing c)
  rw [standing?, standing?, Option.map_map, Option.map_map] at hstanding
  exact congrArg (Option.getD · 0) hstanding

theorem handlesOf_modifyCanvas (s : Scene) (c' c : CanvasRef) (f : Canvas → Canvas) :
    (s.modifyCanvas c' f).handlesOf c = s.handlesOf c := by
  rw [handlesOf, modifyCanvas, getElem?_modifyEntry, handlesOf]
  split
  · rw [Option.map_map]
    rfl
  · rfl

theorem handlesOf_dropHandle (s : Scene) (c' c : CanvasRef) :
    (s.dropHandle c').handlesOf c = s.handlesOf c - if c' = c then 1 else 0 := by
  rw [handlesOf, dropHandle, getElem?_modifyEntry, handlesOf]
  split
  · cases s.canvases[c]? with
    | none => rfl
    | some e => rfl
  · rfl

theorem handlesOf_addHandle (here : c < s.canvases.size) (c' : CanvasRef) :
    (s.addHandle c').handlesOf c = s.handlesOf c + if c' = c then 1 else 0 := by
  rw [handlesOf, addHandle, getElem?_modifyEntry, handlesOf, Array.getElem?_eq_getElem here]
  split
  · rfl
  · rfl

theorem handlesOf_addHandles (here : c < s.canvases.size) (cs : List CanvasRef) :
    (cs.foldl addHandle s).handlesOf c = s.handlesOf c + cs.count c := by
  induction cs generalizing s with
  | nil => rfl
  | cons c' rest ih =>
      have here' : c < (s.addHandle c').canvases.size := Nat.lt_of_lt_of_eq here
        Array.size_modify.symm
      rw [List.foldl_cons, ih here', handlesOf_addHandle here, List.count_cons]
      simp only [beq_iff_eq]
      omega

theorem handlesOf_grant (here : c < s.canvases.size) (c' : CanvasRef) :
    (s.grant c').2.handlesOf c = s.handlesOf c + (s.grant c').1.count c := by
  have granted : (s.withFocusOn c').handlesOf c = s.handlesOf c := handlesOf_of_canvases rfl c
  rw [← granted]
  exact handlesOf_addHandles (s := s.withFocusOn c') here _

theorem isClosed_addHandles (s : Scene) (cs : List CanvasRef) (c : CanvasRef) :
    (cs.foldl addHandle s).isClosed c = s.isClosed c := by
  induction cs generalizing s with
  | nil => rfl
  | cons c' rest ih =>
      rw [List.foldl_cons, ih, isClosed, addHandle, getElem?_modifyEntry, isClosed]
      split
      · exact Option.any_map
      · rfl

theorem isClosed_dropHandle (s : Scene) (c' c : CanvasRef) :
    (s.dropHandle c').isClosed c = s.isClosed c := by
  rw [isClosed, dropHandle, getElem?_modifyEntry, isClosed]
  split
  · exact Option.any_map
  · rfl

theorem isClosed_close_of_ne (hne : c' ≠ c) :
    (s.modifyCanvas c' Canvas.close).isClosed c = s.isClosed c := by
  rw [isClosed, modifyCanvas, getElem?_modifyEntry, if_neg hne, isClosed]

theorem Orderly.eq_of_same (orderly : s.Orderly) (here : c < s.canvases.size)
    (here' : c' < s.canvases.size) (manager : s.managerOf c' = s.managerOf c)
    (number : s.numberOf c = s.numberOf c') : c = c' :=
  Grants.numberOf_inj orderly.numbered (belongs_managerOf here)
    (manager ▸ belongs_managerOf here') number

theorem focused_grant_self (there : s.managerOf c < s.managers.size) :
    (s.grant c).2.focused (s.managerOf c) = some (s.numberOf c) := by
  have hmanager := Array.getElem?_eq_getElem there
  unfold grant focused
  dsimp only
  rw [managers_addHandles, modifyManager, Array.getElem?_modify, if_pos rfl, hmanager]
  rfl

theorem Reliable.of_face (h : s.Reliable c) (face : s'.face? c = s.face? c) : s'.Reliable c := by
  intro e' he'
  rw [face?, face?, he', Option.map_some] at face
  obtain ⟨e, he, hface⟩ := Option.map_eq_some_iff.mp face.symm
  have reliable := h e he
  constructor
  · have hsink : e.canvas.sink = e'.canvas.sink := congrArg Face.sink hface
    rw [← hsink]
    exact reliable.willing
  · have hvisuals : e.canvas.visuals = e'.canvas.visuals := congrArg Face.visuals hface
    rw [← hvisuals]
    exact reliable.visuals

theorem reliable_drawAllowed (h : s.Reliable c) (call : DrawCall) :
    (s.drawAllowed c call).1 = .ok () ∧ (s.drawAllowed c call).2.Reliable c := by
  cases call with
  | run | update => exact reliable_repaintUnlessClosed h
  | clear =>
      obtain ⟨hresult, hreliable⟩ := reliable_eraseUnlessClosed h
      exact ⟨congrArg asOutput hresult, hreliable⟩

end Scene

namespace Activity

/-- Whether a thread is not about to close a canvas, to give up a handle to it or to write past its
printer. -/
def Spares (c : CanvasRef) : Activity → Prop
  | deregistering c' | shutting c' | dropping c' | writing c' _ => c' ≠ c
  | _ => True

def Paints (c : CanvasRef) (a : Activity) : Prop := a = drawing .run c ∨ a = drawing .update c

theorem spares_of_canvas? {a : Activity} {c : CanvasRef} (h : a.canvas? ≠ some c) :
    a.Spares c := by
  cases a with
  | deregistering | shutting | dropping | writing => exact fun heq => h (congrArg some heq)
  | idle | preparing | waiting | asking | drawing | erasing | leaving | returned => trivial

theorem not_paints_of_canvas? {a : Activity} {c : CanvasRef} (h : a.canvas? ≠ some c) :
    ¬ a.Paints c := by
  rintro (rfl | rfl)
  · exact h rfl
  · exact h rfl

end Activity

namespace Threads

open Scene

variable {σ σ' : Threads} {t : ThreadRef} {c : CanvasRef}

namespace Section

theorem isClosed_eq (h : Section σ t σ') (spares : (σ.activity t).Spares c) :
    σ'.scene.isClosed c = σ.scene.isClosed c := by
  cases h with
  | rest | acquire | allow | refuse | release | erased | leave | deregister => rfl
  | prepare c' => exact (sameStanding_preparePrinter _ c').isClosed c
  | grant c' => exact isClosed_addHandles _ _ c
  | draw call c' => exact (sameStanding_drawAllowed _ c' call).isClosed c
  | erase c' other =>
      exact (isClosed_dropHandle _ other c).trans
        ((sameStanding_eraseUnlessClosed _ other).isClosed c)
  | shut c' doing =>
      rw [doing] at spares
      exact isClosed_close_of_ne spares
  | drop c' => exact isClosed_dropHandle _ c' c
  | write c' sequence => exact (sameStanding_writeSequence _ c' sequence).isClosed c

/-- A thread has one handle for each time that it is still to erase a canvas. -/
theorem handlesOf_add (h : Section σ t σ') (spares : (σ.activity t).Spares c)
    (here : c < σ.scene.canvases.size)
    (held : (σ.activity t).condemned.count c < σ.scene.handlesOf c) :
    σ'.scene.handlesOf c + (σ.activity t).condemned.count c =
      σ.scene.handlesOf c + (σ'.activity t).condemned.count c := by
  -- but for a grant and the erasures that follow it, no handle changes and none is to be erased
  cases h with
  | rest => rfl
  | acquire errand doing | allow call c' doing | refuse call c' doing | erased c' doing
  | leave errand result doing =>
      simp [doing, Activity.condemned]
  | release guard doing | deregister c' doing =>
      rw [doing, activity_enter_self]
      exact handlesOf_of_canvases rfl c
  | prepare c' doing =>
      rw [doing, activity_enter_self]
      exact (sameStanding_preparePrinter _ c').handlesOf c
  | grant c' doing =>
      rw [doing, activity_enter_self]
      exact handlesOf_grant here c'
  | draw call c' doing =>
      rw [doing, activity_enter_self]
      exact (sameStanding_drawAllowed _ c' call).handlesOf c
  | erase c' other rest doing =>
      rw [doing] at held ⊢
      rw [activity_enter_self, scene_enter, handlesOf_dropHandle,
        (sameStanding_eraseUnlessClosed _ other).handlesOf]
      simp only [Activity.condemned, List.count_cons, beq_iff_eq] at held ⊢
      split
      · rename_i heq
        rw [if_pos heq] at held
        omega
      · rfl
  | shut c' doing =>
      rw [doing, activity_enter_self]
      exact handlesOf_modifyCanvas _ c' c _
  | drop c' doing =>
      rw [doing] at spares ⊢
      rw [activity_enter_self]
      exact (handlesOf_dropHandle _ c' c).trans (congrArg _ (if_neg spares))
  | write c' sequence doing =>
      rw [doing, activity_enter_self]
      exact (sameStanding_writeSequence _ c' sequence).handlesOf c

/-- What touches a canvas that is spared is drawing it or erasing it. -/
theorem cases_of_touches (h : Section σ t σ') (spares : (σ.activity t).Spares c)
    (touches : (σ.activity t).touches? = some c) :
    σ' = σ ∨
      (∃ call, σ.activity t = .drawing call c ∧ σ'.scene = (σ.scene.drawAllowed c call).2) ∨
      ∃ c' rest, σ.activity t = .erasing c' (c :: rest) ∧
        σ'.scene = (σ.scene.eraseUnlessClosed c).2.dropHandle c := by
  cases h with
  | rest => exact .inl rfl
  | draw call c' doing =>
      rw [doing] at touches
      obtain rfl := Option.some.inj touches
      exact .inr (.inl ⟨call, doing, rfl⟩)
  | erase c' other rest doing =>
      rw [doing] at touches
      obtain rfl := Option.some.inj touches
      exact .inr (.inr ⟨c', rest, doing, rfl⟩)
  | write c' sequence doing =>
      rw [doing] at touches spares
      exact absurd (Option.some.inj touches) spares
  | prepare c' doing | acquire errand doing | allow call c' doing | refuse call c' doing
  | grant c' doing | release guard doing | erased c' doing | leave errand result doing
  | deregister c' doing | shut c' doing | drop c' doing =>
      rw [doing] at touches
      cases touches

theorem still (h : Section σ t σ') (spares : (σ.activity t).Spares c)
    (unpainted : ¬ (σ.activity t).Paints c) (here : c < σ.scene.canvases.size)
    (opened : σ.scene.isClosed c = false) : Still c σ.scene σ'.scene := by
  by_cases touches : (σ.activity t).touches? = some c
  · rcases h.cases_of_touches spares touches with
      rfl | ⟨call, doing, hscene⟩ | ⟨c', rest, -, hscene⟩
    · exact .refl c _
    · rw [hscene]
      cases call with
      | run => exact absurd (.inl doing) unpainted
      | update => exact absurd (.inr doing) unpainted
      | clear => exact still_eraseUnlessClosed here opened
    · rw [hscene]
      exact (still_eraseUnlessClosed here opened).trans (.of_face (face?_dropHandle _ c c))
  · exact .of_face (h.face?_eq (.inl touches))

theorem reliable (h : Section σ t σ') (spares : (σ.activity t).Spares c)
    (reliable : σ.scene.Reliable c) : σ'.scene.Reliable c := by
  by_cases touches : (σ.activity t).touches? = some c
  · rcases h.cases_of_touches spares touches with rfl | ⟨call, -, hscene⟩ | ⟨c', rest, -, hscene⟩
    · exact reliable
    · rw [hscene]
      exact (reliable_drawAllowed reliable call).2
    · rw [hscene]
      exact (reliable_eraseUnlessClosed reliable).2.of_face (face?_dropHandle _ c c)
  · exact reliable.of_face (h.face?_eq (.inl touches))

end Section

/-- The invariant of a canvas that no thread closes. It is registered with its manager alone, and
who is to erase it has a handle to it and the update lock of the manager. -/
structure Kept (c : CanvasRef) (σ : Threads) : Prop extends Sound σ where
  registered : c ∈ σ.scene.entries (σ.scene.managerOf c)
  sole : ∀ m, c ∈ σ.scene.entries m → σ.scene.managerOf c = m
  opened : σ.scene.isClosed c = false
  reliable : σ.scene.Reliable c
  handles : ∀ t, (σ.activity t).condemned.count c < σ.scene.handlesOf c
  homed : ∀ t c' rest, σ.activity t = .erasing c' rest → c ∈ rest →
    σ.scene.managerOf c' = σ.scene.managerOf c
  drawn : ∀ t call result, σ.activity t = .leaving (.draw call c) result ∨
    σ.activity t = .returned (.errand (.draw call c)) result → result = .ok ()
  shown : σ.scene.Blank c ∨ σ.scene.canUpdate (σ.scene.managerOf c) c = true ∨
    ∃ t, c ∈ (σ.activity t).condemned

namespace Kept

theorem here (k : Kept c σ) : c < σ.scene.canvases.size :=
  (k.orderly.listed _).present c k.registered

theorem isAlive (k : Kept c σ) : σ.scene.isAlive c = true :=
  isAlive_iff.mpr (Nat.zero_lt_of_lt (k.handles 0))

theorem locked (k : Kept c σ) {t : ThreadRef} (hmem : c ∈ (σ.activity t).condemned) :
    σ.holder (σ.scene.managerOf c) = some t := by
  cases hactivity : σ.activity t with
  | erasing c' rest =>
      rw [hactivity] at hmem
      refine k.guarded.holder t _ ?_
      rw [hactivity]
      exact congrArg some (k.homed t c' rest hactivity hmem)
  | idle | preparing | waiting | asking | drawing | leaving | deregistering | shutting | dropping
  | writing | returned =>
      rw [hactivity] at hmem
      cases hmem

/-- At most one thread is to erase the canvas. -/
theorem count_condemned_of_ne (k : Kept c σ) {t t' : ThreadRef}
    (hmem : c ∈ (σ.activity t).condemned) (hne : t' ≠ t) :
    (σ.activity t').condemned.count c = 0 := by
  rw [List.count_eq_zero]
  intro hmem'
  exact hne (Option.some.inj ((k.locked hmem').symm.trans (k.locked hmem)))

section Step

variable (k : Kept c σ) (h : Section σ t σ') (spares : (σ.activity t).Spares c)
include k h

include spares in
theorem registered_step : c ∈ σ'.scene.entries (σ'.scene.managerOf c) := by
  rw [h.evolves.managerOf]
  rcases h.entries_cases (σ.scene.managerOf c) with heq | ⟨c', doing, heq⟩
  · rw [heq]
    exact k.registered
  · rw [heq]
    rw [doing] at spares
    have here' := k.present t c' (by rw [doing]; rfl)
    refine mem_entries_deregister k.isAlive (fun manager number => ?_) k.registered
    exact spares (k.orderly.eq_of_same k.here here' manager number).symm

include spares in
theorem handles_step (t' : ThreadRef) :
    (σ'.activity t').condemned.count c < σ'.scene.handlesOf c := by
  have hadd := h.handlesOf_add spares k.here (k.handles t)
  have held := k.handles t
  by_cases hne : t' = t
  · subst hne
    omega
  · rw [h.activity_of_ne hne]
    have held' := k.handles t'
    by_cases hmem : c ∈ (σ.activity t).condemned
    · rw [k.count_condemned_of_ne hmem hne]
      omega
    · rw [List.count_eq_zero.mpr hmem] at hadd
      omega

theorem homed_step (t' : ThreadRef) (c' : CanvasRef) (rest : List CanvasRef)
    (hactivity : σ'.activity t' = .erasing c' rest) (hmem : c ∈ rest) :
    σ'.scene.managerOf c' = σ'.scene.managerOf c := by
  rw [h.evolves.managerOf, h.evolves.managerOf]
  by_cases hne : t' = t
  · subst hne
    cases h with
    | rest => exact k.homed _ _ _ hactivity hmem
    | grant c₁ doing =>
        rw [activity_enter_self, Activity.erasing.injEq] at hactivity
        obtain ⟨rfl, rfl⟩ := hactivity
        rw [grant_fst] at hmem
        exact (k.sole _ (List.mem_filter.mp hmem).1).symm
    | erase c₁ other rest₁ doing =>
        rw [activity_enter_self, Activity.erasing.injEq] at hactivity
        obtain ⟨rfl, rfl⟩ := hactivity
        exact k.homed _ _ _ doing (List.mem_cons_of_mem _ hmem)
    | _ => simp at hactivity
  · rw [h.activity_of_ne hne] at hactivity
    exact k.homed t' c' rest hactivity hmem

theorem drawn_step (t' : ThreadRef) (call : DrawCall) (result : Except Failure Unit)
    (hactivity : σ'.activity t' = .leaving (.draw call c) result ∨
      σ'.activity t' = .returned (.errand (.draw call c)) result) : result = .ok () := by
  by_cases hne : t' = t
  · subst hne
    cases h with
    | rest => exact k.drawn _ _ _ hactivity
    | refuse call' c' doing =>
        simp only [activity_enter_self, Activity.leaving.injEq, reduceCtorEq, or_false] at hactivity
        exact hactivity.2.symm
    | draw call' c' doing =>
        simp only [activity_enter_self, Activity.leaving.injEq, Errand.draw.injEq, reduceCtorEq,
          or_false] at hactivity
        obtain ⟨⟨rfl, rfl⟩, rfl⟩ := hactivity
        exact (reliable_drawAllowed k.reliable call').1
    | leave errand result' doing =>
        simp only [activity_withHolder, activity_enter_self, Activity.returned.injEq, reduceCtorEq,
          Call.errand.injEq, false_or] at hactivity
        obtain ⟨rfl, rfl⟩ := hactivity
        exact k.drawn _ _ _ (.inl doing)
    | _ => simp at hactivity
  · rw [h.activity_of_ne hne] at hactivity
    exact k.drawn t' call result hactivity

omit k in
theorem condemned_step (untouched : (σ.activity t).touches? ≠ some c) {t' : ThreadRef}
    (hmem : c ∈ (σ.activity t').condemned) : c ∈ (σ'.activity t').condemned := by
  by_cases hne : t' = t
  · subst hne
    cases h with
    | rest => exact hmem
    | erase c' other rest doing =>
        rw [doing] at untouched hmem
        rw [activity_enter_self]
        exact (List.mem_cons.mp hmem).resolve_left fun heq => untouched (congrArg some heq.symm)
    | prepare c' doing | acquire errand doing | allow call c' doing | refuse call c' doing
    | grant c' doing | release guard doing | draw call c' doing | erased c' doing
    | leave errand result doing | deregister c' doing | shut c' doing | drop c' doing
    | write c' sequence doing =>
        rw [doing] at hmem
        cases hmem
  · rwa [h.activity_of_ne hne]

/-- Who takes the permission to draw from the canvas is to erase it. -/
theorem shown_untouched (untouched : (σ.activity t).touches? ≠ some c) :
    σ'.scene.Blank c ∨ σ'.scene.canUpdate (σ'.scene.managerOf c) c = true ∨
      ∃ t, c ∈ (σ'.activity t).condemned := by
  rcases k.shown with blank | allowed | ⟨t', hmem⟩
  · exact .inl (blank.of_face (h.face?_eq (.inl untouched)))
  · right
    rw [canUpdate_iff] at allowed ⊢
    rw [h.evolves.managerOf, h.evolves.numberOf]
    rcases h.focused (σ.scene.managerOf c) with hsame | hnone | ⟨c', doing, hm⟩
    · rw [hsame]
      exact .inl allowed
    · exact .inl (.inl hnone)
    · have here' := k.present t c' (by rw [doing]; rfl)
      have there := k.orderly.homed c' _ (belongs_managerOf here')
      cases h with
      | rest => exact .inl allowed
      | grant c₁ at₁ =>
          rw [doing, Activity.asking.injEq, Errand.focus.injEq] at at₁
          subst at₁
          by_cases number : σ.scene.numberOf c = σ.scene.numberOf c'
          · rw [← hm, scene_enter, focused_grant_self there, number]
            exact .inl (.inr rfl)
          · refine .inr ⟨t, ?_⟩
            rw [activity_enter_self, Activity.condemned, grant_fst, hm]
            refine List.mem_filter.mpr ⟨k.registered, ?_⟩
            rw [k.isAlive, Bool.and_true]
            exact decide_eq_true number
      | prepare _ at₁ | acquire _ at₁ | allow _ _ at₁ | refuse _ _ at₁ | release _ at₁
      | draw _ _ at₁ | erased _ at₁ | erase _ _ _ at₁ | leave _ _ at₁ | deregister _ at₁
      | shut _ at₁ | drop _ at₁ | write _ _ at₁ =>
          rw [doing] at at₁
          simp at at₁
  · exact .inr (.inr ⟨t', condemned_step h untouched hmem⟩)

include spares in
theorem shown_step : σ'.scene.Blank c ∨ σ'.scene.canUpdate (σ'.scene.managerOf c) c = true ∨
    ∃ t, c ∈ (σ'.activity t).condemned := by
  by_cases touches : (σ.activity t).touches? = some c
  · rcases h.cases_of_touches spares touches with
      rfl | ⟨call, doing, hscene⟩ | ⟨c', rest, -, hscene⟩
    · exact k.shown
    · have allowed := k.guarded.allowed t call c doing
      rw [hscene]
      exact .inr (.inl (((sameStanding_drawAllowed _ c call).canUpdate c).trans allowed))
    · rw [hscene]
      exact .inl ((blank_eraseUnlessClosed k.here k.opened).of_face (face?_dropHandle _ c c))
  · exact k.shown_untouched h touches

include spares in
theorem step : Kept c σ' where
  toSound := k.toSound.step h
  registered := k.registered_step h spares
  sole m hmem := (h.evolves.managerOf c).trans (k.sole m (h.mem_of_mem_entries hmem))
  opened := (h.isClosed_eq spares).trans k.opened
  reliable := h.reliable spares k.reliable
  handles := k.handles_step h spares
  homed := k.homed_step h
  drawn := k.drawn_step h
  shown := k.shown_step h spares

end Step

/-- A drawing call that is refused finds the canvas blank: the canvas was erased when the focus was
taken from it. -/
theorem blank_of_refused (k : Kept c σ) {call : DrawCall}
    (doing : σ.activity t = .asking (.draw call c))
    (refused : σ.scene.canUpdate (σ.scene.managerOf c) c = false) : σ.scene.Blank c := by
  rcases k.shown with blank | allowed | ⟨t', hmem⟩
  · exact blank
  · cases refused.symm.trans allowed
  · have held := k.guarded.holder t (σ.scene.managerOf c) (by rw [doing]; rfl)
    obtain rfl := Option.some.inj ((k.locked hmem).symm.trans held)
    rw [doing] at hmem
    cases hmem

theorem enterCall (k : Kept c σ) (t : ThreadRef) {call : Call}
    (here : ∀ c, call.canvas? = some c → c < σ.scene.canvases.size) :
    Kept c (σ.enterCall t call) := by
  have sound := k.toSound.enterCall t here
  rw [Threads.enterCall] at sound ⊢
  split
  · rename_i rest
    rw [if_pos rest] at sound
    have fresh := Activity.isFresh_start call
    -- a thread that enters a call is to erase nothing and returns nothing
    have activity : ∀ t', (σ.enter t σ.scene call.start).activity t' = σ.activity t' ∨
        ((σ.enter t σ.scene call.start).activity t').isFresh = true := by
      intro t'
      by_cases hne : t' = t
      · rw [hne, activity_enter_self]
        exact .inr fresh
      · exact .inl (activity_enter_of_ne _ _ _ hne)
    refine ⟨sound, k.registered, k.sole, k.opened, k.reliable, fun t' => ?_, ?_, ?_, ?_⟩
    · rcases activity t' with heq | hfresh
      · rw [heq]
        exact k.handles t'
      · rw [Activity.condemned_of_isFresh hfresh]
        exact Nat.zero_lt_of_lt (k.handles t')
    · intro t' c' rest' hactivity
      rcases activity t' with heq | hfresh
      · exact k.homed t' c' rest' (heq.symm.trans hactivity)
      · rw [hactivity] at hfresh
        cases hfresh
    · intro t' call' result hactivity
      rcases activity t' with heq | hfresh
      · rw [heq] at hactivity
        exact k.drawn t' call' result hactivity
      · rcases hactivity with hactivity | hactivity
        · rw [hactivity] at hfresh
          cases hfresh
        · rw [hactivity] at hfresh
          cases hfresh
    · rcases k.shown with blank | allowed | ⟨t', hmem⟩
      · exact .inl blank
      · exact .inr (.inl allowed)
      · refine .inr (.inr ⟨t', ?_⟩)
        by_cases hne : t' = t
        · rw [hne] at hmem
          rw [Activity.condemned_of_isAtRest rest] at hmem
          cases hmem
        · rwa [activity_enter_of_ne _ _ _ hne]
  · exact k

theorem newCanvas (k : Kept c σ) {m : ManagerRef} (there : m < σ.scene.managers.size)
    (canvas : Canvas) : Kept c (σ.withScene (σ.scene.newCanvas m canvas).2) := by
  have heq := canvases_newCanvas_of_lt m canvas k.here
  have manager := managerOf_newCanvas_of_lt m canvas k.here
  refine ⟨k.toSound.newCanvas there canvas, ?_, fun m' hmem => ?_, ?_, ?_, fun t => ?_, ?_,
    k.drawn, ?_⟩
  · rw [scene_withScene, manager]
    exact mem_entries_newCanvas_of_mem k.orderly k.isAlive k.registered m canvas
  · rcases mem_of_mem_entries_newCanvas hmem with hold | ⟨hnew, -⟩
    · exact manager.trans (k.sole m' hold)
    · exact absurd hnew k.here.ne
  · rw [scene_withScene, isClosed, heq]
    exact k.opened
  · exact k.reliable.of_canvases heq
  · rw [scene_withScene, handlesOf, heq]
    exact k.handles t
  · intro t c' rest hactivity hmem
    have here' := k.present t c' (congrArg Activity.canvas? hactivity)
    rw [scene_withScene, managerOf_newCanvas_of_lt m canvas here', manager]
    exact k.homed t c' rest hactivity hmem
  · have hface : (σ.scene.newCanvas m canvas).2.face? c = σ.scene.face? c :=
      congrArg (Option.map _) heq
    exact k.shown.imp (·.of_face hface)
      (Or.imp_left (canUpdate_newCanvas_of_lt m canvas k.here).trans)

theorem withWidgets (k : Kept c σ) (widgets : Array Widget) :
    Kept c (σ.withScene (σ.scene.withWidgets widgets)) :=
  ⟨k.toSound.withWidgets widgets, k.registered, k.sole, k.opened, k.reliable, k.handles, k.homed,
    k.drawn, k.shown⟩

end Kept

/-- A canvas is kept from the moment it is made. -/
theorem Sound.kept_newCanvas (sound : Sound σ) {m : ManagerRef}
    (there : m < σ.scene.managers.size) (own : σ.scene.OwnRegister m) {canvas : Canvas}
    (reliable : canvas.Reliable) (unmade : canvas.printer = none) (opened : canvas.closed = false) :
    Kept σ.scene.canvases.size (σ.withScene (σ.scene.newCanvas m canvas).2) := by
  have he : (σ.scene.newCanvas m canvas).2.canvases[σ.scene.canvases.size]? =
      some ⟨canvas, m, (σ.scene.managers[m]?.map Manager.nextNumber).getD 0, 1⟩ :=
    Array.getElem?_push_size
  have manager : (σ.scene.newCanvas m canvas).2.managerOf σ.scene.canvases.size = m := by
    rw [managerOf, he]
    rfl
  -- no thread has heard of the canvas yet
  have unmentioned : ∀ t, (σ.activity t).canvas? ≠ some σ.scene.canvases.size := fun t hcanvas =>
    Nat.lt_irrefl _ (sound.present t _ hcanvas)
  have spared : ∀ t, σ.scene.canvases.size ∉ (σ.activity t).condemned := fun t hmem =>
    Nat.lt_irrefl _ (sound.condemned t _ hmem)
  refine ⟨sound.newCanvas there canvas, ?_, fun m' hmem => ?_, ?_, ?_, fun t => ?_, ?_, ?_, ?_⟩
  · rw [scene_withScene, manager]
    exact mem_entries_newCanvas sound.orderly there own canvas
  · rcases mem_of_mem_entries_newCanvas hmem with hold | ⟨-, rfl⟩
    · exact absurd ((sound.orderly.listed m').present _ hold) (Nat.lt_irrefl _)
    · exact manager
  · rw [scene_withScene, isClosed, he]
    exact opened
  · intro e he'
    obtain rfl := Option.some.inj (he.symm.trans he')
    exact reliable
  · rw [scene_withScene, handlesOf, he, activity_withScene, List.count_eq_zero.mpr (spared t)]
    exact Nat.zero_lt_one
  · intro t c' rest hactivity hmem
    refine absurd ?_ (spared t)
    rw [activity_withScene] at hactivity
    rw [hactivity]
    exact hmem
  · intro t call result hactivity
    rcases hactivity with hactivity | hactivity
    · exact absurd (congrArg Activity.canvas? hactivity) (unmentioned t)
    · exact absurd (congrArg Activity.canvas? hactivity) (unmentioned t)
  · refine .inl ⟨canvas.printerIn σ.scene.env, ?_, ?_⟩
    · rw [scene_withScene, printer, he]
      rfl
    · rw [Canvas.printerIn_of_none unmade]
      rfl

end Threads

end Inlay
