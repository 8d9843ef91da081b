import SweepCharts.Proofs.Files.Access

set_option autoImplicit false

/-! # Making directories

A directory is made with all that lead to it, the first of them first. What was made stays, also if
a later one cannot be made.

* `paves_makeDirectories`: all that is new are directories on the way, and if nothing fails the
  directory is there.
* `makeDirectories_of_isDirectory`: a directory that is there is left alone.
* `makeDirectories_again`: a directory that could not be made cannot be made afterwards either. The
  cause is the same, unless the directories that were made lead to a file.
* `walk_of_rooted`: they do so only by a step up.
-/

namespace SweepCharts.Tree

/-! ## Making directories -/

/-- All that is new are directories that the first steps of a path lead to. -/
structure Paves (before after : Tree) (absolute : Bool) (steps : List Step) : Prop where
  start : after.start = before.start
  node? : ∀ loc, after.node? loc = before.node? loc ∨
    before.node? loc = none ∧ after.node? loc = some .directory ∧
      ∃ way, way <+: steps ∧ after.walk (after.origin absolute) way = .ok loc

namespace Paves

variable {before middle after : Tree} {absolute : Bool} {steps : List Step}

theorem refl (t : Tree) (absolute : Bool) (steps : List Step) : Paves t t absolute steps :=
  ⟨rfl, fun _ => .inl rfl⟩

theorem keeps (h : Paves before after absolute steps) : Keeps before after where
  start := h.start
  directory loc hloc := by
    rcases h.node? loc with heq | ⟨hnone, -⟩
    · exact heq.trans hloc
    · cases hnone.symm.trans hloc
  file loc content hloc := by
    rcases h.node? loc with heq | ⟨hnone, -⟩
    · exact ⟨content, heq.trans hloc⟩
    · cases hnone.symm.trans hloc

theorem mono {more : List Step} (h : Paves before after absolute steps) (hmore : steps <+: more) :
    Paves before after absolute more :=
  ⟨h.start, fun loc => (h.node? loc).imp_right fun ⟨hnone, hdir, way, hway, hwalk⟩ =>
    ⟨hnone, hdir, way, hway.trans hmore, hwalk⟩⟩

theorem trans (h : Paves before middle absolute steps) (h' : Paves middle after absolute steps) :
    Paves before after absolute steps where
  start := h'.start.trans h.start
  node? loc := by
    rcases h.node? loc with heq | ⟨hnone, hdir, way, hway, hwalk⟩
    · rw [← heq]
      exact h'.node? loc
    · refine .inr ⟨hnone, h'.keeps.directory loc hdir, way, hway, ?_⟩
      rw [h'.keeps.origin]
      exact h'.keeps.walk hwalk

end Paves

section
variable {t : Tree} {p : Path} {loc : Location}

theorem makeDirectory_of_locate_error {e : OsError} (h : t.locate p = .error e) :
    t.makeDirectory p = .error e := by
  simp only [makeDirectory, h, bind, Except.bind]

theorem makeDirectory_of_directory (h : t.locate p = .ok loc)
    (hnode : t.node? loc = some .directory) : t.makeDirectory p = .error .exists := by
  simp only [makeDirectory, h, bind, Except.bind, hnode]

theorem makeDirectory_of_file {content : List UInt8} (h : t.locate p = .ok loc)
    (hnode : t.node? loc = some (.file content)) :
    t.makeDirectory p = .error (if p.ending = .dot then .notDirectory else .exists) := by
  simp only [makeDirectory, h, bind, Except.bind, hnode]
  cases p.ending <;> rfl

theorem makeDirectory_of_none (h : t.locate p = .ok loc) (hnode : t.node? loc = none) :
    t.makeDirectory p =
      if p.ending = .dot then .error .notFound else .ok (t.put loc .directory) := by
  simp only [makeDirectory, h, bind, Except.bind, hnode]
  cases p.ending <;> rfl

theorem makeDirectory_of_isDirectory (h : t.isDirectory p = true) :
    t.makeDirectory p = .error .exists := by
  obtain ⟨loc, hloc, hnode⟩ := isDirectory_iff.1 h
  exact makeDirectory_of_directory hloc hnode

theorem paves_makeDirectory {after : Tree} (h : t.makeDirectory p = .ok after) :
    Paves t after p.absolute p.steps ∧ after.isDirectory p = true := by
  cases hloc : t.locate p with
  | error e => cases (makeDirectory_of_locate_error hloc).symm.trans h
  | ok loc =>
    cases hnode : t.node? loc with
    | some node =>
      cases node with
      | directory => cases (makeDirectory_of_directory hloc hnode).symm.trans h
      | file content => cases (makeDirectory_of_file hloc hnode).symm.trans h
    | none =>
      rw [makeDirectory_of_none hloc hnode] at h
      split at h
      · cases h
      · obtain rfl := Except.ok.inj h
        have hne : t.node? loc ≠ some .directory := by rw [hnode]; exact nofun
        have hkeeps : Keeps t (t.put loc .directory) := .put hne fun content hfile => by
          cases hnode.symm.trans hfile
        have hput : (t.put loc .directory).node? loc = some .directory := by
          rw [node?_put t .directory (ne_root_of_node? hne), if_pos rfl]
        refine ⟨⟨rfl, fun other => ?_⟩, isDirectory_iff.2 ⟨loc, hkeeps.locate hloc, hput⟩⟩
        rw [node?_put t .directory (ne_root_of_node? hne)]
        split
        · rename_i heq
          subst heq
          refine .inr ⟨hnode, rfl, p.steps, List.prefix_refl _, ?_⟩
          rw [hkeeps.origin]
          exact hkeeps.walk hloc
        · exact .inl rfl

/-- One directory is there afterwards, or nothing has changed. -/
theorem settleDirectory_cases (t : Tree) (p : Path) :
    (∃ after, t.settleDirectory p = (after, .ok ()) ∧ Paves t after p.absolute p.steps ∧
      after.isDirectory p = true) ∨
    ∃ e, t.settleDirectory p = (t, .error e) ∧ t.makeDirectory p = .error e ∧
      t.isDirectory p = false := by
  rw [settleDirectory]
  cases hmake : t.makeDirectory p with
  | ok after =>
    obtain ⟨hpaves, hdir⟩ := paves_makeDirectory hmake
    exact .inl ⟨after, rfl, hpaves, hdir⟩
  | error e =>
    cases hdir : t.isDirectory p with
    | true => exact .inl ⟨t, rfl, .refl t _ _, hdir⟩
    | false => exact .inr ⟨e, rfl, rfl, rfl⟩

theorem settleDirectory_of_error {e : OsError} (h : t.makeDirectory p = .error e)
    (hdir : t.isDirectory p = false) : t.settleDirectory p = (t, .error e) := by
  simp only [settleDirectory, h, hdir, Bool.false_eq_true, if_false]

end

section
variable {t : Tree} {absolute : Bool} {ending : PathEnd} {step : Step} {above : List Step}

theorem makeDirectories_of_ne
    (h : t.makeDirectory ⟨absolute, (step :: above).reverse, ending⟩ ≠ .error .notFound) :
    t.makeDirectories absolute ending (step :: above) =
      t.settleDirectory ⟨absolute, (step :: above).reverse, ending⟩ := by
  rw [makeDirectories]
  split
  · rename_i heq
    exact absurd heq h
  · rfl

theorem makeDirectories_of_notFound
    (h : t.makeDirectory ⟨absolute, (step :: above).reverse, ending⟩ = .error .notFound) :
    t.makeDirectories absolute ending (step :: above) =
      match t.makeDirectories absolute .name above with
      | (t, .ok ()) => t.settleDirectory ⟨absolute, (step :: above).reverse, ending⟩
      | (t, .error e) => (t, .error e) := by
  rw [makeDirectories]
  split
  · rfl
  · rename_i hne
    exact absurd h hne

end

/-- Making a directory adds directories on the way to it, and if it succeeds it is there. -/
theorem paves_makeDirectories (t : Tree) (absolute : Bool) (ending : PathEnd) (above : List Step) :
    Paves t (t.makeDirectories absolute ending above).1 absolute above.reverse ∧
      ((t.makeDirectories absolute ending above).2 = .ok () → above = [] ∨
        (t.makeDirectories absolute ending above).1.isDirectory
          ⟨absolute, above.reverse, ending⟩ = true) := by
  induction above generalizing t ending with
  | nil => exact ⟨.refl t _ _, fun _ => .inl rfl⟩
  | cons step above ih =>
    have hsettle (u : Tree) (hpaves : Paves t u absolute (step :: above).reverse) :
        let out := u.settleDirectory ⟨absolute, (step :: above).reverse, ending⟩
        Paves t out.1 absolute (step :: above).reverse ∧ (out.2 = .ok () → step :: above = [] ∨
          out.1.isDirectory ⟨absolute, (step :: above).reverse, ending⟩ = true) := by
      rcases u.settleDirectory_cases ⟨absolute, (step :: above).reverse, ending⟩ with
        ⟨after, heq, hmore, hdir⟩ | ⟨e, heq, -, -⟩
      · rw [heq]
        exact ⟨hpaves.trans hmore, fun _ => .inr hdir⟩
      · rw [heq]
        exact ⟨hpaves, nofun⟩
    by_cases hfirst :
        t.makeDirectory ⟨absolute, (step :: above).reverse, ending⟩ = .error .notFound
    · have hway : above.reverse <+: (step :: above).reverse := by
        rw [List.reverse_cons]
        exact List.prefix_append _ _
      have hpaves := (ih t .name).1.mono hway
      rw [makeDirectories_of_notFound hfirst]
      generalize t.makeDirectories absolute .name above = out at hpaves
      obtain ⟨u, r⟩ := out
      cases r with
      | ok => exact hsettle u hpaves
      | error e => exact ⟨hpaves, nofun⟩
    · rw [makeDirectories_of_ne hfirst]
      exact hsettle t (.refl t _ _)

/-- A directory that is there is left alone. -/
theorem makeDirectories_of_isDirectory {t : Tree} {absolute : Bool} {ending : PathEnd}
    {above : List Step} (h : t.isDirectory ⟨absolute, above.reverse, ending⟩ = true) :
    t.makeDirectories absolute ending above = (t, .ok ()) := by
  cases above with
  | nil => rfl
  | cons step above =>
    have hmake := makeDirectory_of_isDirectory h
    rw [makeDirectories_of_ne (by rw [hmake]; exact nofun), settleDirectory, hmake]
    simp only [h, if_true]

/-! ## Directories that cannot be made -/

/-- The cause of a failure, and that of the same attempt afterwards: they are the same, or a file
that was in the place of a directory is now met on the way. -/
def Recurs (first second : OsError) : Prop :=
  second = first ∨ first = .exists ∧ second = .notDirectory

/-- No step can follow these: the way ends in a file, or is refused before its end. -/
def Blocked (t : Tree) (absolute : Bool) (steps : List Step) (cause : OsError) : Prop :=
  (∃ e, t.walk (t.origin absolute) steps = .error e ∧ e ≠ .notFound ∧ Recurs cause e) ∨
    cause = .exists ∧ ∃ loc content, t.walk (t.origin absolute) steps = .ok loc ∧
      t.node? loc = some (.file content)

section
variable {t : Tree} {absolute : Bool} {steps : List Step} {cause : OsError}

theorem Blocked.walk_snoc (h : Blocked t absolute steps cause) (step : Step) :
    ∃ e, t.walk (t.origin absolute) (steps ++ [step]) = .error e ∧ e ≠ .notFound ∧
      Recurs cause e := by
  rcases h with ⟨e, hwalk, hne, hrecurs⟩ | ⟨rfl, loc, content, hwalk, hnode⟩
  · exact ⟨e, by rw [walk_append, hwalk]; rfl, hne, hrecurs⟩
  · refine ⟨.notDirectory, ?_, nofun, .inr ⟨rfl, rfl⟩⟩
    rw [walk_append, hwalk]
    exact walk_of_file hnode step []

/-- A directory below one that is there fails to be made because of its name, because a file has
it, or because the path ends in a dot. -/
theorem makeDirectory_below {t : Tree} {absolute : Bool} {steps : List Step} {step : Step}
    {ending : PathEnd} {cause : OsError}
    (habove : t.isDirectory ⟨absolute, steps, .name⟩ = true)
    (hmake : t.makeDirectory ⟨absolute, steps ++ [step], ending⟩ = .error cause)
    (hdir : t.isDirectory ⟨absolute, steps ++ [step], ending⟩ = false) :
    Blocked t absolute (steps ++ [step]) cause ∨ ending = .dot := by
  obtain ⟨folder, hfolder, hnode⟩ := isDirectory_iff.1 habove
  have hwalk : t.locate ⟨absolute, steps ++ [step], ending⟩ = t.walk folder [step] := by
    rw [locate_eq, walk_append]
    exact congrArg (Except.bind · fun out => t.walk out [step]) hfolder
  cases hloc : t.locate ⟨absolute, steps ++ [step], ending⟩ with
  | error e =>
    obtain rfl : e = cause :=
      Except.error.inj ((makeDirectory_of_locate_error hloc).symm.trans hmake)
    refine .inl (.inl ⟨e, hloc, ?_, .inl rfl⟩)
    rintro rfl
    rw [hwalk] at hloc
    rcases t.walk_cons_cases folder step [] with
      ⟨hnone, -⟩ | ⟨⟨_, hfile⟩, -⟩ | ⟨-, ⟨-, heq⟩ | ⟨_, -, ⟨-, heq⟩ | ⟨-, heq⟩⟩⟩
    · cases hnode.symm.trans hnone
    · cases hnode.symm.trans hfile
    · cases heq.symm.trans hloc
    · cases heq.symm.trans hloc
    · cases heq.symm.trans hloc
  | ok loc =>
    by_cases hdot : ending = .dot
    · exact .inr hdot
    cases hentry : t.node? loc with
    | none =>
      have hmade := makeDirectory_of_none hloc hentry
      rw [if_neg hdot] at hmade
      cases hmade.symm.trans hmake
    | some node =>
      cases node with
      | directory =>
        cases hdir.symm.trans (isDirectory_iff.2 ⟨loc, hloc, hentry⟩)
      | file content =>
        have hfails := makeDirectory_of_file hloc hentry
        rw [if_neg hdot] at hfails
        have hcause : cause = .exists := Except.error.inj (hmake.symm.trans hfails)
        exact .inl (.inr ⟨hcause, loc, content, hloc, hentry⟩)

end

/-- How making a directory fails: at once, on the way, or at its last step. -/
theorem makeDirectories_error_cases {t after : Tree} {absolute : Bool} {ending : PathEnd}
    {step : Step} {above : List Step} {cause : OsError}
    (h : t.makeDirectories absolute ending (step :: above) = (after, .error cause)) :
    after = t ∨
    t.makeDirectory ⟨absolute, (step :: above).reverse, ending⟩ = .error .notFound ∧
      (t.makeDirectories absolute .name above = (after, .error cause) ∨
        after.isDirectory ⟨absolute, above.reverse, .name⟩ = true ∧
          after.makeDirectory ⟨absolute, (step :: above).reverse, ending⟩ = .error cause ∧
          after.isDirectory ⟨absolute, (step :: above).reverse, ending⟩ = false) := by
  have hsettle (u : Tree)
      (hu : u.settleDirectory ⟨absolute, (step :: above).reverse, ending⟩ =
        (after, .error cause)) :
      after = u ∧ after.makeDirectory ⟨absolute, (step :: above).reverse, ending⟩ = .error cause ∧
        after.isDirectory ⟨absolute, (step :: above).reverse, ending⟩ = false := by
    rcases u.settleDirectory_cases ⟨absolute, (step :: above).reverse, ending⟩ with
      ⟨_, heq, -, -⟩ | ⟨e, heq, hmake, hdir⟩
    · cases heq.symm.trans hu
    · obtain ⟨rfl, he⟩ := Prod.mk.inj (heq.symm.trans hu)
      exact ⟨rfl, Except.error.inj he ▸ hmake, hdir⟩
  by_cases hfirst : t.makeDirectory ⟨absolute, (step :: above).reverse, ending⟩ = .error .notFound
  · rw [makeDirectories_of_notFound hfirst] at h
    have hspec := (paves_makeDirectories t absolute .name above).2
    cases hout : t.makeDirectories absolute .name above with
    | mk u r =>
      rw [hout] at h hspec
      cases r with
      | error e => exact .inr ⟨hfirst, .inl h⟩
      | ok =>
        obtain ⟨rfl, hlast⟩ := hsettle u h
        rcases hspec rfl with rfl | habove
        · exact .inl (Prod.mk.inj hout).1.symm
        · exact .inr ⟨hfirst, .inr ⟨habove, hlast⟩⟩
  · rw [makeDirectories_of_ne hfirst] at h
    exact .inl (hsettle t h).1

/-- Where directories were made before one could not be, that one blocks the way. -/
theorem makeDirectories_eq_error {t after : Tree} {absolute : Bool} {above : List Step}
    {cause : OsError} (h : t.makeDirectories absolute .name above = (after, .error cause)) :
    after = t ∨ Blocked after absolute above.reverse cause := by
  induction above generalizing after with
  | nil => cases h
  | cons step above ih =>
    rcases makeDirectories_error_cases h with hafter | ⟨-, hway | ⟨habove, hmake, hdir⟩⟩
    · exact .inl hafter
    · refine (ih hway).imp_right fun hblocked => ?_
      rw [List.reverse_cons]
      exact .inl (hblocked.walk_snoc step)
    · rw [List.reverse_cons] at hmake hdir ⊢
      exact .inr ((makeDirectory_below habove hmake hdir).resolve_right nofun)

/-- A path that led to no directory, and is refused now, led nowhere. -/
theorem walk_eq_notFound {t after : Tree} {p : Path} {e : OsError} (hkeeps : Keeps t after)
    (hfirst : t.makeDirectory p = .error .notFound) (hafter : after.locate p = .error e) :
    t.locate p = .error .notFound := by
  cases hloc : t.locate p with
  | error x => rw [Except.error.inj ((makeDirectory_of_locate_error hloc).symm.trans hfirst)]
  | ok loc => cases hafter.symm.trans (hkeeps.locate hloc)

/-- **A directory that could not be made** cannot be made afterwards. The cause is the same, unless
the path led nowhere before and now runs into a file. -/
theorem makeDirectories_again {t after : Tree} {absolute : Bool} {ending : PathEnd}
    {above : List Step} {cause : OsError}
    (h : t.makeDirectories absolute ending above = (after, .error cause)) :
    ∃ e, after.makeDirectories absolute ending above = (after, .error e) ∧
      (e = cause ∨ cause = .exists ∧ e = .notDirectory ∧
        t.locate ⟨absolute, above.reverse, ending⟩ = .error .notFound ∧
        after.locate ⟨absolute, above.reverse, ending⟩ = .error .notDirectory) := by
  have hkeeps := (paves_makeDirectories t absolute ending above).1.keeps
  rw [h] at hkeeps
  cases above with
  | nil => cases h
  | cons step above =>
    rcases makeDirectories_error_cases h with hafter | ⟨hfirst, hway | ⟨habove, hmake, hdir⟩⟩
    · exact ⟨cause, by rw [hafter, h, hafter], .inl rfl⟩
    · rcases makeDirectories_eq_error hway with hafter | hblocked
      · exact ⟨cause, by rw [hafter, h, hafter], .inl rfl⟩
      -- the whole way is refused at the place where a part of it was
      obtain ⟨e, hwalk, hne, hrecurs⟩ := hblocked.walk_snoc step
      rw [← List.reverse_cons] at hwalk
      have hloc : after.locate ⟨absolute, (step :: above).reverse, ending⟩ = .error e := hwalk
      have hdir : after.isDirectory ⟨absolute, (step :: above).reverse, ending⟩ = false := by
        rw [Bool.eq_false_iff, ne_eq, isDirectory_iff]
        rintro ⟨loc, hdir, -⟩
        cases hloc.symm.trans hdir
      have hmake := makeDirectory_of_locate_error hloc
      refine ⟨e, ?_, hrecurs.imp_right fun ⟨hcause, he⟩ =>
        ⟨hcause, he, walk_eq_notFound hkeeps hfirst hloc, he ▸ hloc⟩⟩
      rw [makeDirectories_of_ne (by rw [hmake]; exact fun heq => hne (Except.error.inj heq))]
      exact settleDirectory_of_error hmake hdir
    · refine ⟨cause, ?_, .inl rfl⟩
      by_cases hagain : cause = .notFound
      · rw [makeDirectories_of_notFound (hagain ▸ hmake), makeDirectories_of_isDirectory habove]
        exact settleDirectory_of_error hmake hdir
      · rw [makeDirectories_of_ne
          (by rw [hmake]; exact fun heq => hagain (Except.error.inj heq))]
        exact settleDirectory_of_error hmake hdir

/-! ## Rooted trees -/

/-- What is in a directory is reached through it. -/
def Rooted (t : Tree) : Prop :=
  ∀ loc name, t.node? (loc ++ [name]) ≠ none → t.node? loc = some .directory

/-- Steps downwards that run into a file did so before directories were added, because nothing is
below a directory that was not there. -/
theorem walk_of_rooted {before after : Tree}
    (hadded : ∀ loc, after.node? loc = before.node? loc ∨ after.node? loc = some .directory)
    (hrooted : before.Rooted) {steps : List Step} {loc : Location} (hdown : Step.up ∉ steps)
    (h : after.walk loc steps = .error .notDirectory) :
    before.walk loc steps = .error .notDirectory ∧ before.node? loc ≠ none := by
  induction steps generalizing loc with
  | nil => cases h
  | cons step rest ih =>
    obtain ⟨hstep, hrest⟩ := not_or.1 (mt List.mem_cons.2 hdown)
    rcases after.walk_cons_cases loc step rest with
      ⟨-, heq⟩ | ⟨⟨content, hnode⟩, -⟩ | ⟨-, ⟨rfl, -⟩ | ⟨name, rfl, ⟨hname, heq⟩ | ⟨-, heq⟩⟩⟩
    · cases heq.symm.trans h
    · rcases hadded loc with hsame | hdir
      · have hfile := hsame.symm.trans hnode
        exact ⟨walk_of_file hfile step rest, by rw [hfile]; exact nofun⟩
      · cases hdir.symm.trans hnode
    · exact absurd rfl hstep
    · obtain ⟨hwalk, hne⟩ := ih hrest (heq.symm.trans h)
      have hdir := hrooted loc name hne
      exact ⟨(walk_down hdir hname rest).trans hwalk, by rw [hdir]; exact nofun⟩
    · cases heq.symm.trans h

end SweepCharts.Tree
