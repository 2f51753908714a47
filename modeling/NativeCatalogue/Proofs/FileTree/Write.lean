import NativeCatalogue.FileTree.Basic
import NativeCatalogue.Prototype.Parser

set_option autoImplicit false

namespace NativeCatalogue

theorem String.fromUTF8?_toUTF8 (s : String) : String.fromUTF8? s.toUTF8 = some s := by
  rw [String.toUTF8_eq_toByteArray, String.fromUTF8?, dif_pos s.isValidUTF8]
  rfl

namespace FileTree

theorem lookup_setEntry_self (name : String) (node : FileTree) (entries : List (String × FileTree)) :
    (setEntry name node entries).lookup name = some node := by
  induction entries with
  | nil => simp [setEntry]
  | cons e entries ih =>
    by_cases h : e.1 = name
    · rw [setEntry, if_pos h, List.lookup_cons_self]
    · have hne : (name == e.1) = false := beq_false_of_ne fun he => h he.symm
      rw [setEntry, if_neg h, List.lookup_cons, hne]
      exact ih

theorem lookup_setEntry_of_ne {name other : String} (h : other ≠ name) (node : FileTree)
    (entries : List (String × FileTree)) :
    (setEntry name node entries).lookup other = entries.lookup other := by
  induction entries with
  | nil => simp [setEntry, h]
  | cons e entries ih =>
    by_cases he : e.1 = name
    · have hne : (other == name) = false := beq_false_of_ne h
      have hne' : (other == e.1) = false := beq_false_of_ne fun ho => h (ho.trans he)
      rw [setEntry, if_pos he, List.lookup_cons, List.lookup_cons, hne, hne']
    · rw [setEntry, if_neg he, List.lookup_cons, List.lookup_cons, ih]

theorem at?_append (t : FileTree) (as bs : List String) :
    t.at? (as ++ bs) = (t.at? as).bind (at? · bs) := by
  induction as generalizing t with
  | nil => rfl
  | cons name as ih =>
    cases t with
    | file bytes modified => rfl
    | directory entries =>
      rw [List.cons_append, at?, at?]
      cases entries.lookup name with
      | none => rfl
      | some child => exact ih child

def Keeps (t u : FileTree) : Prop :=
  ∀ names entries, t.at? names = some (.directory entries) →
    ∃ others, u.at? names = some (.directory others) ∧
      ∀ name, (entries.lookup name).isSome = true → (others.lookup name).isSome = true

theorem keeps_file (bytes : ByteArray) (modified : Calendar.Instant) (u : FileTree) :
    Keeps (.file bytes modified) u := by
  intro names entries h
  cases names with
  | nil => cases h
  | cons name names => cases h

theorem keeps_setEntry {name : String} {child : FileTree} {entries : List (String × FileTree)}
    (h : ∀ before, entries.lookup name = some before → Keeps before child) :
    Keeps (.directory entries) (.directory (setEntry name child entries)) := by
  intro names inner hat
  cases names with
  | nil =>
    cases hat
    refine ⟨_, rfl, fun other hother => ?_⟩
    by_cases he : other = name
    · rw [he, lookup_setEntry_self]
      rfl
    · rwa [lookup_setEntry_of_ne he]
  | cons first rest =>
    obtain ⟨before, hbefore, hrest⟩ := Option.bind_eq_some_iff.1 hat
    by_cases he : first = name
    · rw [he] at hbefore
      obtain ⟨others, hothers, hnames⟩ := h before hbefore rest inner hrest
      refine ⟨others, ?_, hnames⟩
      rw [at?, he, lookup_setEntry_self]
      exact hothers
    · refine ⟨inner, ?_, fun _ hother => hother⟩
      rw [at?, lookup_setEntry_of_ne he, hbefore]
      exact hrest

theorem keeps_setAt {t : FileTree} (node : FileTree) {directory : List String} {name : String}
    {entries : List (String × FileTree)} (hat : t.at? directory = some (.directory entries))
    (hfree : ∀ inner, entries.lookup name ≠ some (.directory inner)) :
    Keeps t (t.setAt node (directory ++ [name])) ∧
      (t.setAt node (directory ++ [name])).at? directory =
        some (.directory (setEntry name node entries)) := by
  induction directory generalizing t with
  | nil =>
    cases hat
    refine ⟨keeps_setEntry fun before hbefore => ?_, rfl⟩
    cases before with
    | file bytes modified => exact keeps_file bytes modified _
    | directory inner => exact absurd hbefore (hfree inner)
  | cons first rest ih =>
    cases t with
    | file bytes modified => cases hat
    | directory outer =>
      obtain ⟨child, hchild, hrest⟩ := Option.bind_eq_some_iff.1 hat
      obtain ⟨hkeeps, hthere⟩ := ih hrest
      rw [List.cons_append, setAt, hchild, Option.getD_some]
      refine ⟨keeps_setEntry fun before hbefore => ?_, ?_⟩
      · rw [hchild] at hbefore
        cases hbefore
        exact hkeeps
      · rw [at?, lookup_setEntry_self]
        exact hthere

theorem Keeps.nodeAt {t u : FileTree} (h : Keeps t u) {place : Place}
    {entries : List (String × FileTree)} (hat : t.nodeAt? place = some (.directory entries)) :
    ∃ others, u.nodeAt? place = some (.directory others) ∧
      ∀ name, (entries.lookup name).isSome = true → (others.lookup name).isSome = true := by
  cases place with
  | outside => exact ⟨entries, hat, fun _ hname => hname⟩
  | inside names => exact h names entries hat

theorem Keeps.step {t u : FileTree} (h : Keeps t u) {place next : Place} {s : PathStep}
    (hstep : t.step place s = .ok next) : u.step place s = .ok next := by
  unfold FileTree.step at hstep ⊢
  split at hstep
  · rename_i entries hat
    obtain ⟨others, hothers, hnames⟩ := h.nodeAt hat
    rw [hothers]
    cases s with
    | name name =>
      simp only [Place.entry] at hstep ⊢
      split at hstep
      · cases hstep
      · rename_i hlong
        rw [if_neg hlong]
        split at hstep
        · rename_i names node hlookup
          obtain ⟨other, hother⟩ := Option.isSome_iff_exists.1 (hnames name (by rw [hlookup]; rfl))
          rw [hother]
          exact hstep
        · cases hstep
    | _ => exact hstep
  · cases hstep

theorem Keeps.foldlM {t u : FileTree} (h : Keeps t u) {steps : List PathStep} {place next : Place}
    (hsteps : steps.foldlM t.step place = .ok next) : steps.foldlM u.step place = .ok next := by
  induction steps generalizing place with
  | nil => exact hsteps
  | cons s steps ih =>
    rw [List.foldlM_cons] at hsteps ⊢
    obtain ⟨between, hstep, hrest⟩ := bind_eq_ok.1 hsteps
    exact bind_eq_ok.2 ⟨between, h.step hstep, ih hrest⟩

theorem file_eq_ok {place : Place} {entries : List (String × FileTree)} {name : String}
    {names : List String} (h : place.file entries name = .ok names) :
    ∃ directory, place = .inside directory ∧ names = directory ++ [name] ∧
      ¬ nameLimit < name.utf8ByteSize ∧ ∀ inner, entries.lookup name ≠ some (.directory inner) := by
  unfold Place.file at h
  split at h
  · cases h
  · rename_i hlong
    split at h
    · cases h
    · cases h
    · rename_i directory hfree
      cases h
      exact ⟨directory, rfl, rfl, hlong, fun inner he => hfree inner he⟩

theorem target_eq_ok {t : FileTree} {p : Path} {names : List String} (h : t.target p = .ok names) :
    ∃ steps name directory entries, checkPath p = .ok () ∧ p.steps = steps ++ [.name name] ∧
      t.resolve steps = .ok (.inside directory) ∧
      t.at? directory = some (.directory entries) ∧ names = directory ++ [name] ∧
      ¬ nameLimit < name.utf8ByteSize ∧ ∀ inner, entries.lookup name ≠ some (.directory inner) := by
  unfold target at h
  obtain ⟨⟨⟩, hcheck, h⟩ := bind_eq_ok.1 h
  split at h
  · cases h
  · rename_i last hlast
    obtain ⟨place, hresolve, h⟩ := bind_eq_ok.1 h
    split at h
    · rename_i entries name hnode hname
      split at h
      · rename_i hsame
        obtain ⟨directory, rfl, hnames, hlong, hfree⟩ := file_eq_ok h
        have hlast' : last = .name name := by
          cases last with
          | name text => cases hname; rfl
          | _ => cases hname
        rw [hsame, hlast'] at hlast
        rw [hsame] at hresolve
        obtain ⟨steps, hsteps⟩ := List.getLast?_eq_some_iff.1 hlast
        rw [hsteps, List.dropLast_concat] at hresolve
        exact ⟨steps, name, directory, entries, hcheck, hsteps, hresolve, hnode, hnames, hlong, hfree⟩
      · cases h
    · cases h
    · cases h

theorem at?_write {t : FileTree} {node : FileTree} {directory : List String} {name : String}
    {entries : List (String × FileTree)} (hat : t.at? directory = some (.directory entries))
    (hfree : ∀ inner, entries.lookup name ≠ some (.directory inner)) :
    (t.setAt node (directory ++ [name])).at? (directory ++ [name]) = some node := by
  rw [at?_append, (keeps_setAt node hat hfree).2, Option.bind_some, at?, lookup_setEntry_self]
  rfl

theorem find_write {t u : FileTree} {p : Path} {text : String} {now : Calendar.Instant}
    (h : t.write p text now = .ok u) : u.find p = .ok (.file text.toUTF8 now) := by
  obtain ⟨names, htarget, hwrite⟩ := bind_eq_ok.1 h
  cases hwrite
  obtain ⟨steps, name, directory, entries, hcheck, hsteps, hresolve, hat, rfl, hlong, hfree⟩ :=
    target_eq_ok htarget
  obtain ⟨hkeeps, hthere⟩ := keeps_setAt (.file text.toUTF8 now) hat hfree
  have hfile : (t.setAt (.file text.toUTF8 now) (directory ++ [name])).at? (directory ++ [name]) =
      some (.file text.toUTF8 now) := at?_write hat hfree
  have hstep : (t.setAt (.file text.toUTF8 now) (directory ++ [name])).step (.inside directory)
      (.name name) = .ok (.inside (directory ++ [name])) := by
    have hnode : (t.setAt (.file text.toUTF8 now) (directory ++ [name])).nodeAt? (.inside directory) =
        some (.directory (setEntry name (.file text.toUTF8 now) entries)) := hthere
    simp only [FileTree.step, hnode, Place.entry, if_neg hlong, lookup_setEntry_self]
  have hfound : (t.setAt (.file text.toUTF8 now) (directory ++ [name])).resolve p.steps =
      .ok (.inside (directory ++ [name])) := by
    rw [hsteps, resolve, List.foldlM_append]
    exact bind_eq_ok.2 ⟨_, hkeeps.foldlM hresolve, by rw [List.foldlM_cons, hstep]; rfl⟩
  rw [find, hcheck]
  simp only [bind, Except.bind, hfound, nodeAt?, hfile]

theorem readBytes_write {t u : FileTree} {p : Path} {text : String} {now : Calendar.Instant}
    (h : t.write p text now = .ok u) : u.readBytes p = .ok text.toUTF8 := by
  rw [readBytes, find_write h]
  rfl

theorem readText_write {t u : FileTree} {p : Path} {text : String} {now : Calendar.Instant}
    (h : t.write p text now = .ok u) : u.readText p = .ok text := by
  simp only [readText, readBytes_write h, bind, Except.bind, String.fromUTF8?_toUTF8]

theorem hasPath_of_readText {t : FileTree} {p : Path} {text : String} (h : t.readText p = .ok text) :
    t.hasPath p = true := by
  obtain ⟨bytes, hbytes, -⟩ := bind_eq_ok.1 h
  obtain ⟨node, hnode, -⟩ := bind_eq_ok.1 hbytes
  rw [hasPath, hnode]
  rfl

/-- What is to be seen of a node from outside: a file with what is in it, or else a directory. -/
def surface : FileTree → Option (ByteArray × Calendar.Instant)
  | .file bytes modified => some (bytes, modified)
  | .directory _ => none

def SameBut (names : List String) (t u : FileTree) : Prop :=
  ∀ other, other ≠ names → (t.at? other).map surface = (u.at? other).map surface

theorem sameBut_setEntry {name : String} {names : List String} {child : FileTree}
    {entries : List (String × FileTree)}
    (h : ∀ other, other ≠ names →
      ((entries.lookup name).bind (at? · other)).map surface = (child.at? other).map surface) :
    SameBut (name :: names) (.directory entries) (.directory (setEntry name child entries)) := by
  intro other hother
  cases other with
  | nil => rfl
  | cons first rest =>
    rw [at?, at?]
    by_cases he : first = name
    · rw [he] at hother ⊢
      rw [lookup_setEntry_self]
      exact h rest fun hrest => hother (by rw [hrest])
    · rw [lookup_setEntry_of_ne he]

theorem at?_file (bytes : ByteArray) (modified : Calendar.Instant) {names : List String}
    (h : names ≠ []) : at? (.file bytes modified) names = none := by
  cases names with
  | nil => exact absurd rfl h
  | cons name names => rfl

theorem sameBut_setAt {t : FileTree} (bytes : ByteArray) (modified : Calendar.Instant)
    {directory : List String} {name : String} {entries : List (String × FileTree)}
    (hat : t.at? directory = some (.directory entries))
    (hfree : ∀ inner, entries.lookup name ≠ some (.directory inner)) :
    SameBut (directory ++ [name]) t (t.setAt (.file bytes modified) (directory ++ [name])) := by
  induction directory generalizing t with
  | nil =>
    cases hat
    apply sameBut_setEntry
    intro other hother
    rw [setAt, at?_file bytes modified hother]
    cases hlookup : entries.lookup name with
    | none => rfl
    | some node =>
      cases node with
      | file old before => simp [at?_file old before hother]
      | directory inner => exact absurd hlookup (hfree inner)
  | cons first rest ih =>
    cases t with
    | file old before => cases hat
    | directory outer =>
      -- Only the entry of the first name changes, and in it only what the induction says.
      obtain ⟨child, hchild, hrest⟩ := Option.bind_eq_some_iff.1 hat
      apply sameBut_setEntry
      intro other hother
      rw [hchild]
      exact ih hrest other hother

def CanWrite (t : FileTree) (p : Path) : Prop :=
  ∃ names, t.target p = .ok names

structure Rewritten (p : Path) (text : String) (now : Calendar.Instant) (t u : FileTree) : Prop where
  changed : ∃ names, t.target p = .ok names ∧ u.at? names = some (.file text.toUTF8 now) ∧
    SameBut names t u
  read : u.readText p = .ok text

theorem rewritten_of_write {t u : FileTree} {p : Path} {text : String} {now : Calendar.Instant}
    (h : t.write p text now = .ok u) : Rewritten p text now t u := by
  have hread := readText_write h
  obtain ⟨names, htarget, hwrite⟩ := bind_eq_ok.1 h
  cases hwrite
  obtain ⟨-, name, directory, entries, -, -, -, hat, rfl, -, hfree⟩ := target_eq_ok htarget
  exact ⟨⟨_, htarget, at?_write hat hfree, sameBut_setAt text.toUTF8 now hat hfree⟩, hread⟩

theorem exists_write {t : FileTree} {p : Path} (h : t.CanWrite p) (text : String)
    (now : Calendar.Instant) : ∃ u, t.write p text now = .ok u := by
  obtain ⟨names, htarget⟩ := h
  exact ⟨_, bind_eq_ok.2 ⟨names, htarget, rfl⟩⟩

end FileTree

end NativeCatalogue
