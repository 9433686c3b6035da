import FlatConfig.FileTree
import FlatConfig.Proofs.FirstOccurrence

/-!
Where paths lead, as far as it is seen from outside: what stands in each place, a directory without
its entries.

`walk_eq` puts the way that a path takes in terms of that view, and `walkOn_replace` says what
becomes of it when a file is written: every path leads where it led.
-/

set_option autoImplicit false

namespace FlatConfig.FileTree

theorem at?_append (tree : FileTree) (p q : Place) :
    tree.at? (p ++ q) = (tree.at? p).bind (·.at? q) := by
  induction p generalizing tree with
  | nil => rfl
  | cons name p ih =>
    cases h : tree.child? name with
    | none => simp [at?, h]
    | some child => simp [at?, h, ih]

theorem at?_snoc (tree : FileTree) (p : Place) (name : String) :
    tree.at? (p ++ [name]) = (tree.at? p).bind (·.child? name) := by
  rw [at?_append]
  congr 1
  funext t
  cases h : t.child? name <;> simp [at?, h]

theorem lookup_alter (f : Option FileTree → FileTree) (name : String)
    (entries : List (String × FileTree)) (other : String) :
    (alter f name entries).lookup other =
      if other = name then some (f (entries.lookup name)) else entries.lookup other := by
  induction entries with
  | nil => simp [alter, lookup_cons_eq]
  | cons e rest ih =>
    obtain ⟨n, tree⟩ := e
    by_cases hn : n = name
    · subst n
      by_cases ho : other = name <;> simp [alter, lookup_cons_eq, ho]
    · by_cases ho : other = name
      · subst other
        simp [alter, lookup_cons_eq, hn, Ne.symm hn, ih]
      · simp [alter, lookup_cons_eq, hn, ho, ih]

def HasRoom : Place → FileTree → Prop
  | [], _ => True
  | name :: rest, .directory entries =>
    match entries.lookup name with
    | some tree => HasRoom rest tree
    | none => rest = []
  | _, _ => False

theorem hasRoom_of_at? {place : Place} {tree entry : FileTree}
    (h : tree.at? place = some entry) : HasRoom place tree := by
  induction place generalizing tree with
  | nil => trivial
  | cons name rest ih =>
    cases tree with
    | directory entries =>
      cases hl : entries.lookup name with
      | none => simp [at?, child?, hl] at h
      | some child =>
        have hc : child.at? rest = some entry := by simpa [at?, child?, hl] using h
        simpa [HasRoom, hl] using ih hc
    | _ => simp [at?, child?] at h

theorem hasRoom_snoc {above : Place} {name : String} {tree : FileTree}
    {entries : List (String × FileTree)} (h : tree.at? above = some (.directory entries)) :
    HasRoom (above ++ [name]) tree := by
  induction above generalizing tree with
  | nil =>
    obtain rfl : tree = .directory entries := by simpa [at?] using h
    cases hl : entries.lookup name <;> simp [HasRoom, hl]
  | cons n rest ih =>
    cases tree with
    | directory inner =>
      cases hl : inner.lookup n with
      | none => simp [at?, child?, hl] at h
      | some child =>
        have hc : child.at? rest = some (.directory entries) := by simpa [at?, child?, hl] using h
        simpa [HasRoom, hl] using ih hc
    | _ => simp [at?, child?] at h

def surface : FileTree → FileTree
  | .directory _ => .directory []
  | tree => tree

def surface? (tree : FileTree) (place : Place) : Option FileTree := (tree.at? place).map surface

theorem surface?_cons (entries : List (String × FileTree)) (name : String) (rest : Place) :
    surface? (.directory entries) (name :: rest) =
      (entries.lookup name).bind (·.surface? rest) := by
  cases h : entries.lookup name <;> simp [surface?, at?, child?, h]

theorem at?_put_self {place : Place} {tree : FileTree} (h : HasRoom place tree)
    (content : ByteArray) :
    (put (.file content) place tree).at? place = some (.file content) := by
  induction place generalizing tree with
  | nil => rfl
  | cons name rest ih =>
    cases tree with
    | directory entries =>
      cases hl : entries.lookup name with
      | none =>
        obtain rfl : rest = [] := by simpa [HasRoom, hl] using h
        simp [put, at?, child?, lookup_alter]
      | some child =>
        have hr : HasRoom rest child := by simpa [HasRoom, hl] using h
        simp [put, at?, child?, lookup_alter, hl, ih hr]
    | _ => exact absurd h (by simp [HasRoom])

def IsFree : Option FileTree → Prop
  | none | some (.file _) => True
  | _ => False

theorem surface?_file_of_ne_nil (content : ByteArray) {place : Place} (h : place ≠ []) :
    surface? (.file content) place = none := by
  cases place with
  | nil => exact absurd rfl h
  | cons name rest => rfl

/-- A file that is written changes no other place. -/
theorem surface?_put {place : Place} {tree : FileTree} (hroom : HasRoom place tree)
    (hfree : IsFree (tree.surface? place)) (content : ByteArray) {other : Place}
    (hne : other ≠ place) :
    (put (.file content) place tree).surface? other = tree.surface? other := by
  induction place generalizing tree other with
  | nil =>
    cases tree with
    | file old => rw [put, surface?_file_of_ne_nil _ hne, surface?_file_of_ne_nil _ hne]
    | _ => exact absurd hfree (by simp [IsFree, surface?, at?, surface])
  | cons name rest ih =>
    cases tree with
    | directory entries =>
      cases other with
      | nil => rfl
      | cons n more =>
        rw [put, surface?_cons, surface?_cons, lookup_alter]
        rw [surface?_cons] at hfree
        by_cases hn : n = name
        · subst n
          have hmore : more ≠ rest := fun h => hne (h ▸ rfl)
          cases hl : entries.lookup name with
          | none =>
            obtain rfl : rest = [] := by simpa [HasRoom, hl] using hroom
            simp [put, surface?_file_of_ne_nil _ hmore]
          | some child =>
            have hr : HasRoom rest child := by simpa [HasRoom, hl] using hroom
            simpa using ih hr (by simpa [hl] using hfree) hmore
        · simp [hn]
    | _ => exact absurd hroom (by simp [HasRoom])

/-- Follows the parts of a path from a place, in a tree of which only the view is known. -/
def walkOn (look : Place → Option FileTree) (followLast : Bool) (links : Nat) (place : Place) :
    List String → Except Obstacle Location
  | [] => .ok (.entry place)
  | part :: rest =>
    if part = "" ∨ part = "." then walkOn look followLast links place rest
    else if part = ".." then walkOn look followLast links place.dropLast rest
    else if part.utf8ByteSize > maxNameLength then .error .blocked
    else
      match look place with
      | some (.directory _) =>
        match look (place ++ [part]) with
        | none => if rest.isEmpty then .ok (.vacant (place ++ [part])) else .error .absent
        | some (.file _) =>
          if rest.isEmpty then .ok (.entry (place ++ [part])) else .error .blocked
        | some (.link target) =>
          if rest.isEmpty ∧ ¬ followLast then .ok (.entry (place ++ [part]))
          else
            match links with
            | 0 => .error .blocked
            | links + 1 =>
              walkOn look followLast links (if Path.isAbsolute target then [] else place)
                (Path.parts target ++ rest)
        | some _ => walkOn look followLast links (place ++ [part]) rest
      | _ => .error .blocked
termination_by parts => (links, parts.length)

def Trail.IsIn (root : FileTree) : Trail → Prop
  | [] => True
  | (name, tree) :: above =>
    (Trail.target root above).child? name = some tree ∧ Trail.IsIn root above

theorem Trail.place_cons (name : String) (tree : FileTree) (above : Trail) :
    Trail.place ((name, tree) :: above) = above.place ++ [name] := by
  simp [Trail.place]

theorem Trail.place_tail (trail : Trail) : Trail.place trail.tail = trail.place.dropLast := by
  cases trail with
  | nil => rfl
  | cons e above => simp [Trail.place]

theorem Trail.IsIn.tail {root : FileTree} {trail : Trail} (h : trail.IsIn root) :
    Trail.IsIn root trail.tail := by
  cases trail with
  | nil => trivial
  | cons e above => exact h.2

theorem Trail.at?_place {root : FileTree} {trail : Trail} (h : trail.IsIn root) :
    root.at? trail.place = some (trail.target root) := by
  induction trail with
  | nil => rfl
  | cons e above ih =>
    obtain ⟨name, tree⟩ := e
    rw [Trail.place_cons, at?_snoc, ih h.2]
    exact h.1

theorem surface?_snoc {tree : FileTree} {place : Place} {entries : List (String × FileTree)}
    (h : tree.at? place = some (.directory entries)) (name : String) :
    tree.surface? (place ++ [name]) = (entries.lookup name).map surface := by
  simp [surface?, at?_snoc, h, child?]

theorem Trail.surface?_place {root : FileTree} {trail : Trail} (h : trail.IsIn root) :
    root.surface? trail.place = some (trail.target root).surface := by
  rw [surface?, Trail.at?_place h]
  rfl

theorem Trail.surface?_of_target {root : FileTree} {trail : Trail} (h : trail.IsIn root)
    {entries : List (String × FileTree)} (ht : trail.target root = .directory entries) :
    root.surface? trail.place = some (.directory []) ∧
      ∀ name, root.surface? (trail.place ++ [name]) = (entries.lookup name).map surface := by
  have hat := Trail.at?_place h
  rw [ht] at hat
  exact ⟨by rw [Trail.surface?_place h, ht]; rfl, surface?_snoc hat⟩

theorem walkOn_name {look : Place → Option FileTree} {place : Place}
    {entries : List (String × FileTree)} (hd : look place = some (.directory entries))
    {part : String} (hskip : ¬ (part = "" ∨ part = ".")) (hup : ¬ part = "..")
    (hlong : ¬ part.utf8ByteSize > maxNameLength) (followLast : Bool) (links : Nat)
    (rest : List String) :
    walkOn look followLast links place (part :: rest) =
      match look (place ++ [part]) with
      | none => if rest.isEmpty then .ok (.vacant (place ++ [part])) else .error .absent
      | some (.file _) =>
        if rest.isEmpty then .ok (.entry (place ++ [part])) else .error .blocked
      | some (.link target) =>
        if rest.isEmpty ∧ ¬ followLast then .ok (.entry (place ++ [part]))
        else
          match links with
          | 0 => .error .blocked
          | links + 1 =>
            walkOn look followLast links (if Path.isAbsolute target then [] else place)
              (Path.parts target ++ rest)
      | some _ => walkOn look followLast links (place ++ [part]) rest := by
  rw [walkOn, if_neg hskip, if_neg hup, if_neg hlong, hd]

theorem walk_eq {root : FileTree} (followLast : Bool) (links : Nat) {trail : Trail}
    (h : trail.IsIn root) (parts : List String) :
    walk root followLast links trail parts =
      walkOn root.surface? followLast links trail.place parts := by
  fun_induction walk root followLast links trail parts with
  | case1 => simp [walkOn]
  | case2 links trail part rest hskip ih => rw [walkOn, if_pos hskip, ih h]
  | case3 links trail rest hskip ih =>
    rw [walkOn, if_neg hskip, if_pos rfl, ih h.tail, Trail.place_tail]
  | case4 links trail part rest hskip hup hlong =>
    rw [walkOn, if_neg hskip, if_neg hup, if_pos hlong]
  | case5 links trail part rest hskip hup hlong entries ht hl hr
  | case6 links trail part rest hskip hup hlong entries ht hl hr =>
    obtain ⟨hd, hc⟩ := Trail.surface?_of_target h ht
    rw [walkOn_name hd hskip hup hlong, hc, hl]
    simp [hr]
  | case7 links trail part rest hskip hup hlong entries ht content hl hr
  | case8 links trail part rest hskip hup hlong entries ht content hl hr
  | case9 links trail part rest hskip hup hlong entries ht target hl hr =>
    obtain ⟨hd, hc⟩ := Trail.surface?_of_target h ht
    rw [walkOn_name hd hskip hup hlong, hc, hl]
    simp [hr, surface]
  | case10 trail part rest hskip hup hlong entries ht target hl hr =>
    obtain ⟨hd, hc⟩ := Trail.surface?_of_target h ht
    rw [walkOn_name hd hskip hup hlong, hc, hl]
    simp only [Option.map_some, surface, if_neg hr]
  | case11 trail part rest hskip hup hlong entries ht target hl hr links ih =>
    obtain ⟨hd, hc⟩ := Trail.surface?_of_target h ht
    rw [walkOn_name hd hskip hup hlong, hc, hl]
    simp only [Option.map_some, surface, if_neg hr]
    by_cases ha : Path.isAbsolute target = true
    · simpa [ha, Trail.place] using ih (by simp [ha, Trail.IsIn])
    · simpa [ha] using ih (by simpa [ha] using h)
  | case12 links trail part rest hskip hup hlong entries ht tree hfile hlink hl ih =>
    obtain ⟨hd, hc⟩ := Trail.surface?_of_target h ht
    have hin : Trail.IsIn root ((part, tree) :: trail) := ⟨by rw [ht]; exact hl, h⟩
    rw [walkOn_name hd hskip hup hlong, hc, hl, ih hin, Trail.place_cons]
    cases tree with
    | file content => exact absurd rfl (hfile content)
    | link target => exact absurd rfl (hlink target)
    | _ => rfl
  | case13 links trail part rest hskip hup hlong ht =>
    rw [walkOn, if_neg hskip, if_neg hup, if_neg hlong, Trail.surface?_place h]
    cases hs : trail.target root with
    | directory entries => exact absurd hs (ht entries)
    | _ => rfl

theorem walkOn_eq_vacant {look : Place → Option FileTree} {followLast : Bool} {links : Nat}
    {start place : Place} {parts : List String}
    (h : walkOn look followLast links start parts = .ok (.vacant place)) :
    look place = none ∧
      ∃ above name entries, place = above ++ [name] ∧ look above = some (.directory entries) := by
  fun_induction walkOn look followLast links start parts with
  | case1 => simp at h
  | case2 links start part rest hskip ih => exact ih h
  | case3 links start rest hskip ih => exact ih h
  | case5 links start part rest hskip hup hlong entries hd hl hr =>
    obtain rfl : start ++ [part] = place := by simpa using h
    exact ⟨hl, start, part, entries, rfl, hd⟩
  | case11 start part rest hskip hup hlong entries hd target hl hr links ih => exact ih h
  | case12 links start part rest hskip hup hlong entries hd tree hfile hlink hl ih => exact ih h
  | _ => simp at h

/-- After a file is written every path leads where it led; what was vacant there is an entry now. -/
theorem walkOn_replace {look changed : Place → Option FileTree} {place : Place}
    {content : ByteArray} (hfree : IsFree (look place))
    (hnew : changed place = some (.file content))
    (hother : ∀ other, other ≠ place → changed other = look other) {followLast : Bool}
    {links : Nat} {start : Place} {parts : List String} {location : Location}
    (h : walkOn look followLast links start parts = .ok location) :
    walkOn changed followLast links start parts =
      .ok (if location = .vacant place then .entry place else location) := by
  -- the place holds no directory, so each directory on the way is seen as before
  have hdirectory : ∀ {q entries}, look q = some (.directory entries) → changed q = look q := by
    intro q entries hd
    apply hother
    rintro rfl
    simp [hd, IsFree] at hfree
  fun_induction walkOn look followLast links start parts with
  | case1 links start =>
    obtain rfl : .entry start = location := by simpa using h
    simp [walkOn]
  | case2 links start part rest hskip ih => rw [walkOn, if_pos hskip, ih h]
  | case3 links start rest hskip ih => rw [walkOn, if_neg hskip, if_pos rfl, ih h]
  | case5 links start part rest hskip hup hlong entries hd hl hr =>
    rw [walkOn_name (hdirectory hd ▸ hd) hskip hup hlong]
    obtain rfl : .vacant (start ++ [part]) = location := by simpa using h
    by_cases hp : start ++ [part] = place
    · subst hp
      simp [hnew, hr]
    · simp [hother _ hp, hl, hr, hp]
  | case7 links start part rest hskip hup hlong entries hd old hl hr =>
    rw [walkOn_name (hdirectory hd ▸ hd) hskip hup hlong]
    obtain rfl : .entry (start ++ [part]) = location := by simpa using h
    by_cases hp : start ++ [part] = place
    · subst hp
      simp [hnew, hr]
    · simp [hother _ hp, hl, hr]
  | case9 links start part rest hskip hup hlong entries hd target hl hr =>
    have hp : start ++ [part] ≠ place := by rintro rfl; simp [hl, IsFree] at hfree
    rw [walkOn_name (hdirectory hd ▸ hd) hskip hup hlong, hother _ hp, hl]
    obtain rfl : .entry (start ++ [part]) = location := by simpa using h
    simp [hr]
  | case11 start part rest hskip hup hlong entries hd target hl hr links ih =>
    have hp : start ++ [part] ≠ place := by rintro rfl; simp [hl, IsFree] at hfree
    rw [walkOn_name (hdirectory hd ▸ hd) hskip hup hlong, hother _ hp, hl]
    simp only [if_neg hr]
    exact ih h
  | case12 links start part rest hskip hup hlong entries hd tree hfile hlink hl ih =>
    have hp : start ++ [part] ≠ place := by
      rintro rfl
      cases tree <;> simp_all [IsFree]
    rw [walkOn_name (hdirectory hd ▸ hd) hskip hup hlong, hother _ hp, hl]
    cases tree with
    | file old => exact absurd rfl (hfile old)
    | link target => exact absurd rfl (hlink target)
    | _ => exact ih h
  | _ => simp at h

end FlatConfig.FileTree
