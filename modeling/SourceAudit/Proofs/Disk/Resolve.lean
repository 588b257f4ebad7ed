import SourceAudit.Proofs.Disk.Tree
import SourceAudit.Proofs.Fallible
import SourceAudit.SourceText

/-!
# Looking up and resolving agree

A path is followed in two ways: `Disk.locate` goes from name to name and spends one of forty links at each link,
`Disk.resolve` replaces links by what their targets resolve to and remembers which links it is inside of. Both are
read off one relation: `Leads d n place names dest` says that the names lead from the place to `dest` through `n`
links. A link costs one more than its target, so while a target is being resolved its link cannot come up again.

Results:
* `leads_of_locate`: what a path leads to is reached through at most forty links.
* `Leads.det`, `Leads.split`: the way is determined, and can be cut at any name.
* `resolve_of_find?`: the path of a file that can be reached resolves to the place where the file stands.
* `resolve_place`: the text of the place where a file stands resolves to that place.
-/
namespace SourceAudit

open Fallible

namespace Node

theorem get?_cons_eq_some {node m : Node} {name : String} {rest : Place} :
    node.get? (name :: rest) = some m ↔
      ∃ entries child, node = .dir entries ∧ entries.lookup name = some child ∧ child.get? rest = some m := by
  cases node with
  | file | locked | link => simp [get?]
  | dir entries =>
    rw [get?]
    cases hl : entries.lookup name <;> simp [hl]

theorem get?_append (node : Node) (place rest : Place) :
    node.get? (place ++ rest) = (node.get? place).bind (·.get? rest) := by
  induction place generalizing node with
  | nil => rw [List.nil_append, get?, Option.bind_some]
  | cons name place ih =>
    cases node with
    | file | locked | link => rfl
    | dir entries =>
      rw [List.cons_append, get?, get?]
      cases entries.lookup name with
      | none => rfl
      | some child => exact ih child

theorem get?_snoc {node : Node} {place : Place} {entries : List (String × Node)} (name : String)
    (h : node.get? place = some (.dir entries)) : node.get? (place ++ [name]) = entries.lookup name := by
  rw [get?_append, h, Option.bind_some, get?]
  cases entries.lookup name <;> rfl

theorem child_eq {node child child' : Node} {place : Place} {name : String} {entries entries' : List (String × Node)}
    (here : node.get? place = some (.dir entries)) (here' : node.get? place = some (.dir entries'))
    (found : entries.lookup name = some child) (found' : entries'.lookup name = some child') : child = child' := by
  rw [← get?_snoc name here] at found
  rw [← get?_snoc name here', found] at found'
  exact Option.some.inj found'

theorem link_or_solid (node : Node) : (∃ target, node = .link target) ∨ ∀ target, node ≠ .link target := by
  cases node <;> simp

theorem ne_link_of_isFile {node : Node} (h : node.isFile = true) (target : String) : node ≠ .link target := by
  rintro rfl
  cases h

end Node

namespace Disk

/-- If the text of a link asks for a directory and no names follow it, it leads to one. -/
def Suits (d : Disk) (target : String) (rest : List String) (dest : Place) : Prop :=
  rest = [] → endingOf target ≠ .name → ∃ entries, d.root.get? dest = some (.dir entries)

/-- Following names from a place leads to another place, through a number of links. -/
inductive Leads (d : Disk) : Nat → Place → List String → Place → Prop
  | done (place : Place) : Leads d 0 place [] place
  | up {n : Nat} {place dest : Place} {entries : List (String × Node)} {rest : List String}
      (here : d.root.get? place = some (.dir entries)) (next : Leads d n place.dropLast rest dest) :
      Leads d n place (".." :: rest) dest
  | enter {n : Nat} {place dest : Place} {entries : List (String × Node)} {name : String} {node : Node}
      {rest : List String} (here : d.root.get? place = some (.dir entries)) (plain : name ≠ "..")
      (found : entries.lookup name = some node) (solid : ∀ target, node ≠ .link target)
      (next : Leads d n (place ++ [name]) rest dest) : Leads d n place (name :: rest) dest
  | link {n : Nat} {place dest : Place} {entries : List (String × Node)} {name target : String}
      {rest : List String} (here : d.root.get? place = some (.dir entries)) (plain : name ≠ "..")
      (found : entries.lookup name = some (.link target))
      (next : Leads d n (linkStart place target) ((Path.ofString target).names ++ rest) dest)
      (suits : d.Suits target rest dest) : Leads d (n + 1) place (name :: rest) dest

namespace Leads

variable {d : Disk} {n m : Nat} {place dest dest' : Place} {names rest : List String}

/-- The way is determined. -/
theorem det (h : Leads d n place names dest) (h' : Leads d m place names dest') : n = m ∧ dest = dest' := by
  induction h generalizing m dest' with
  | done place => cases h'; exact ⟨rfl, rfl⟩
  | up here next ih =>
    cases h' with
    | up here' next' => exact ih next'
    | enter _ plain => exact absurd rfl plain
    | link _ plain => exact absurd rfl plain
  | enter here plain found solid next ih =>
    cases h' with
    | up => exact absurd rfl plain
    | enter here' _ found' _ next' => exact ih next'
    | link here' _ found' => exact absurd (Node.child_eq here here' found found') (solid _)
  | link here plain found next suits ih =>
    cases h' with
    | up => exact absurd rfl plain
    | enter here' _ found' solid' => exact absurd (Node.child_eq here' here found' found) (solid' _)
    | link here' _ found' next' =>
      cases Node.child_eq here here' found found'
      obtain ⟨hn, hd⟩ := ih next'
      exact ⟨by rw [hn], hd⟩

/-- A name can be followed from a directory only. -/
theorem dir_of_ne_nil (h : Leads d n place names dest) (hne : names ≠ []) :
    ∃ entries, d.root.get? place = some (.dir entries) := by
  cases h with
  | done => exact absurd rfl hne
  | up here => exact ⟨_, here⟩
  | enter here => exact ⟨_, here⟩
  | link here => exact ⟨_, here⟩

/-- The way can be cut at any name. -/
theorem split (h : Leads d n place (names ++ rest) dest) :
    ∃ a b mid, n = a + b ∧ Leads d a place names mid ∧ Leads d b mid rest dest := by
  generalize hall : names ++ rest = all at h
  induction h generalizing names with
  | done place =>
    obtain ⟨rfl, rfl⟩ := List.append_eq_nil_iff.1 hall
    exact ⟨0, 0, place, rfl, .done place, .done place⟩
  | @up n place dest entries more here next ih =>
    cases names with
    | nil =>
      subst hall
      exact ⟨0, n, place, by omega, .done place, .up here next⟩
    | cons first names =>
      obtain ⟨rfl, hmore⟩ := List.cons.inj hall
      obtain ⟨a, b, mid, hn, h1, h2⟩ := ih hmore
      exact ⟨a, b, mid, hn, .up here h1, h2⟩
  | @enter n place dest entries name node more here plain found solid next ih =>
    cases names with
    | nil =>
      subst hall
      exact ⟨0, n, place, by omega, .done place, .enter here plain found solid next⟩
    | cons first names =>
      obtain ⟨rfl, hmore⟩ := List.cons.inj hall
      obtain ⟨a, b, mid, hn, h1, h2⟩ := ih hmore
      exact ⟨a, b, mid, hn, .enter here plain found solid h1, h2⟩
  | @link n place dest entries name target more here plain found next suits ih =>
    cases names with
    | nil =>
      subst hall
      exact ⟨0, n + 1, place, by omega, .done place, .link here plain found next suits⟩
    | cons first names =>
      obtain ⟨rfl, rfl⟩ := List.cons.inj hall
      obtain ⟨a, b, mid, hn, h1, h2⟩ := @ih ((Path.ofString target).names ++ names) (List.append_assoc ..)
      -- Where the way is cut there is a directory, unless it ends there.
      have hmid : d.Suits target names mid := by
        intro hlast hending
        cases rest with
        | nil =>
          cases h2
          exact suits (by rw [hlast]; rfl) hending
        | cons => exact h2.dir_of_ne_nil (List.cons_ne_nil _ _)
      exact ⟨a + 1, b, mid, by omega, .link here plain found h1 hmid, h2⟩

/-- The first name of a way: the way to what it stands for, and the way on from there. -/
theorem split_cons {name : String} (h : Leads d n place (name :: rest) dest) :
    ∃ a b mid, n = a + b ∧ Leads d a place [name] mid ∧ Leads d b mid rest dest :=
  split (show Leads d n place ([name] ++ rest) dest from h)

theorem of_link {name target : String} (plain : name ≠ "..")
    (hlink : d.root.get? (place ++ [name]) = some (.link target)) (h : Leads d n place [name] dest) :
    ∃ m, n = m + 1 ∧ Leads d m (linkStart place target) (Path.ofString target).names dest := by
  cases h with
  | up => exact absurd rfl plain
  | enter here _ found solid =>
    rw [Node.get?_snoc name here, found] at hlink
    exact absurd (Option.some.inj hlink) (solid target)
  | link here _ found next =>
    rw [Node.get?_snoc name here, found] at hlink
    cases hlink
    exact ⟨_, rfl, by simpa using next⟩

end Leads

/-! ## Looking up -/

section

variable {d : Disk} {followLast : Bool} {expand : Place → String → List String → Except DiskFault Spot}
  {place : Place} {entries : List (String × Node)} {name : String} {rest : List String}

theorem followNames_nil_eq_ok {spot : Spot} :
    d.followNames followLast expand place [] = .ok spot ↔
      ∃ node, d.root.get? place = some node ∧ spot = .taken place node := by
  rw [followNames]
  cases d.root.get? place <;> simp [eq_comm]

theorem followNames_up (here : d.root.get? place = some (.dir entries)) :
    d.followNames followLast expand place (".." :: rest) = d.followNames followLast expand place.dropLast rest := by
  simp only [followNames, here, if_true]

theorem followNames_enter {node : Node} (here : d.root.get? place = some (.dir entries)) (plain : name ≠ "..")
    (found : entries.lookup name = some node) (solid : ∀ target, node ≠ .link target) :
    d.followNames followLast expand place (name :: rest) = d.followNames followLast expand (place ++ [name]) rest := by
  rw [followNames, here]
  simp only [plain, if_false, found]

theorem followNames_link {target : String} (here : d.root.get? place = some (.dir entries)) (plain : name ≠ "..")
    (found : entries.lookup name = some (.link target)) :
    d.followNames followLast expand place (name :: rest) =
      if rest.isEmpty && !followLast then .ok (.taken (place ++ [name]) (.link target))
      else expand place target rest := by
  rw [followNames, here]
  simp only [plain, if_false, found]

theorem followNames_missing (here : d.root.get? place = some (.dir entries)) (plain : name ≠ "..")
    (found : entries.lookup name = none) :
    d.followNames followLast expand place (name :: rest) =
      if rest.isEmpty then .ok (.free place name) else .error .notFound := by
  rw [followNames, here]
  simp only [plain, if_false, found]

/-- Names are not followed from anything but a directory. -/
theorem followNames_stuck (here : ∀ entries, d.root.get? place ≠ some (.dir entries)) :
    ∃ fault, d.followNames followLast expand place (name :: rest) = .error fault ∧ fault ≠ .tooManyLinks := by
  rw [followNames]
  split
  · next entries hdir => exact absurd hdir (here entries)
  · exact ⟨_, rfl, by decide⟩
  · exact ⟨_, rfl, by decide⟩

theorem dir_of_followNames {spot : Spot} (h : d.followNames followLast expand place (name :: rest) = .ok spot) :
    ∃ entries, d.root.get? place = some (.dir entries) := by
  by_contra hdir
  obtain ⟨fault, hfault, -⟩ := followNames_stuck (not_exists.1 hdir)
  rw [hfault] at h
  cases h

end

/-- A link leads to what its target leads to, if that is a directory or the text asks for none. -/
theorem Ending.accept_eq_taken {ending : Ending} {spot : Spot} {place : Place} {node : Node} :
    ending.accept spot = .ok (.taken place node) ↔
      spot = .taken place node ∧ (ending ≠ .name → ∃ entries, node = .dir entries) := by
  cases ending with
  | name => simp [accept]
  | slash | dot =>
    cases spot with
    | free directory name => simp [accept]
    | taken found there => cases there <;> simp +contextual [accept, eq_comm]

/-- Following names leads to what is found there, if following a link's target does. -/
theorem leads_of_followNames {d : Disk} {m : Nat} {expand : Place → String → List String → Except DiskFault Spot}
    {dest : Place} {node : Node}
    (hexpand : ∀ place target rest, expand place target rest = .ok (.taken dest node) →
      ∃ n < m, Leads d n (linkStart place target) ((Path.ofString target).names ++ rest) dest ∧
        d.Suits target rest dest ∧ d.root.get? dest = some node) :
    ∀ {names : List String} {place : Place}, d.followNames true expand place names = .ok (.taken dest node) →
      ∃ n ≤ m, Leads d n place names dest ∧ d.root.get? dest = some node := by
  intro names
  induction names with
  | nil =>
    intro place h
    obtain ⟨found, here, hspot⟩ := followNames_nil_eq_ok.1 h
    cases hspot
    exact ⟨0, Nat.zero_le m, .done _, here⟩
  | cons name rest ih =>
    intro place h
    obtain ⟨entries, here⟩ := dir_of_followNames h
    by_cases hup : name = ".."
    · subst hup
      rw [followNames_up here] at h
      obtain ⟨n, hn, hl, hd⟩ := ih h
      exact ⟨n, hn, .up here hl, hd⟩
    · cases found : entries.lookup name with
      | none =>
        rw [followNames_missing here hup found] at h
        split at h <;> cases h
      | some child =>
        rcases child.link_or_solid with ⟨target, rfl⟩ | solid
        · rw [followNames_link here hup found, if_neg (by simp)] at h
          obtain ⟨n, hn, hl, hsuits, hd⟩ := hexpand _ _ _ h
          exact ⟨n + 1, hn, .link here hup found hl hsuits, hd⟩
        · rw [followNames_enter here hup found solid] at h
          obtain ⟨n, hn, hl, hd⟩ := ih h
          exact ⟨n, hn, .enter here hup found solid hl, hd⟩

theorem leads_of_followLink {d : Disk} {dest : Place} {node : Node} (m : Nat) :
    ∀ place target rest, d.followLink true m place target rest = .ok (.taken dest node) →
      ∃ n < m, Leads d n (linkStart place target) ((Path.ofString target).names ++ rest) dest ∧
        d.Suits target rest dest ∧ d.root.get? dest = some node := by
  induction m with
  | zero => intro place target rest h; cases h
  | succ m ih =>
    intro place target rest h
    rw [followLink] at h
    obtain ⟨spot, hspot, hkind⟩ := bind_eq_ok.1 h
    cases rest with
    | nil =>
      obtain ⟨rfl, hdir⟩ := Ending.accept_eq_taken.1 hkind
      obtain ⟨n, hn, hl, hd⟩ := leads_of_followNames ih hspot
      refine ⟨n, Nat.lt_succ_of_le hn, hl, fun _ hending => ?_, hd⟩
      obtain ⟨entries, rfl⟩ := hdir hending
      exact ⟨entries, hd⟩
    | cons name rest =>
      cases hkind
      obtain ⟨n, hn, hl, hd⟩ := leads_of_followNames ih hspot
      exact ⟨n, Nat.lt_succ_of_le hn, hl, fun hnil => absurd hnil (List.cons_ne_nil _ _), hd⟩

/-- What a path leads to is reached through at most forty links. -/
theorem leads_of_locate {d : Disk} {p : Path} {dest : Place} {node : Node}
    (h : d.locate true p = .ok (.taken dest node)) :
    ∃ n ≤ maxLinks, Leads d n (d.start p) p.names dest ∧ d.root.get? dest = some node :=
  leads_of_followNames (leads_of_followLink maxLinks) h

theorem locate_of_find? {d : Disk} {p : Path} {node : Node} (h : d.find? p = some node) :
    ∃ place, d.locate true p = .ok (.taken place node) := by
  unfold find? at h
  split at h
  · cases h
    exact ⟨_, ‹_›⟩
  · cases h

/-! ## Resolving -/

/-- Every way to a link among the pending ones has more than `n` links. -/
def Spares (d : Disk) (n : Nat) (pending : List Place) : Prop :=
  ∀ place name, place ++ [name] ∈ pending → ∀ a dest, Leads d a place [name] dest → n < a

theorem Spares.mono {d : Disk} {n m : Nat} {pending : List Place} (h : Spares d n pending) (hm : m ≤ n) :
    Spares d m pending :=
  fun place name hmem a dest hl => Nat.lt_of_le_of_lt hm (h place name hmem a dest hl)

/-- While the target of a link is resolved, the link is pending, and has one link more than its target. -/
theorem Spares.cons {d : Disk} {n : Nat} {place dest : Place} {name : String} {pending : List Place}
    (h : Spares d n pending) (hl : Leads d (n + 1) place [name] dest) : Spares d n ((place ++ [name]) :: pending) := by
  intro place' name' hmem a dest' hl'
  rcases List.mem_cons.1 hmem with heq | hmem
  · obtain ⟨rfl, hname⟩ := List.append_inj' heq rfl
    cases hname
    exact (hl.det hl').1 ▸ Nat.lt_succ_self n
  · exact h place' name' hmem a dest' hl'

theorem nameFault?_eq_none {p : Path} (h : ∀ n ∈ p.names, isFileName n = true) : nameFault? p = none := by
  have hwide : (p.names.any fun name => (Path.codePointsOf name.toList).any (!·.isEncodable)) = false := by
    refine List.any_eq_false.2 fun n hn => ?_
    rw [Path.codePointsOf_of_notMem (isFileName_iff.1 (h n hn)).2.2.2.1]
    simp [CodePoint.isEncodable]
  have hnull : p.names.any (·.toList.contains (Char.ofNat 0)) = false := by
    refine List.any_eq_false.2 fun n hn => ?_
    simpa using (isFileName_iff.1 (h n hn)).2.2.2.2
  rw [nameFault?, hwide, hnull]
  rfl

section

variable {d : Disk} (hp : d.root.isProper = true)
include hp

theorem nameFault?_place {place : Place} {node : Node} (h : d.root.get? place = some node) :
    nameFault? ⟨"/", place⟩ = none :=
  nameFault?_eq_none (Node.isProper_of_get? hp h).2

theorem noDots_place {place : Place} {node : Node} (h : d.root.get? place = some node) : ".." ∉ place :=
  fun hmem => absurd ((Node.isProper_of_get? hp h).2 _ hmem) (by decide)

/-- Resolving names follows the same way, if resolving a link's target does. -/
theorem resolveNames_of_leads {depth : Nat} {enter : Place → List Place → String → Except Stop Place}
    (henter : ∀ n place pending target dest, n < depth → Spares d n pending →
      Leads d n (linkStart place target) (Path.ofString target).names dest → enter place pending target = .ok dest)
    {steps : List (String × String)} {n : Nat} {place dest : Place} {pending : List Place} (hn : n ≤ depth)
    (hpend : Spares d n pending) (h : Leads d n place (steps.map (·.1)) dest) :
    d.resolveNames pending enter place steps = .ok dest := by
  induction steps generalizing n place with
  | nil =>
    cases h
    rfl
  | cons step rest ih =>
    obtain ⟨name, root⟩ := step
    unfold resolveNames
    rw [List.map_cons] at h
    cases h with
    | up here next => exact ih hn hpend next
    | @enter _ _ _ _ _ node _ here plain found solid next =>
      have hnode : d.root.get? (place ++ [name]) = some node := (Node.get?_snoc name here).trans found
      simp only [plain, if_false, nameFault?_place hp hnode, hnode]
      cases node with
      | file bytes => exact ih hn hpend next
      | locked size => exact ih hn hpend next
      | dir children => exact ih hn hpend next
      | link target => exact absurd rfl (solid target)
    | @link n _ _ _ _ target _ here plain found next suits =>
      have hnode : d.root.get? (place ++ [name]) = some (.link target) := (Node.get?_snoc name here).trans found
      obtain ⟨a, b, mid, hab, hfirst, hrest⟩ := Leads.split_cons (.link here plain found next suits)
      obtain ⟨a, rfl, htarget⟩ := hfirst.of_link plain hnode
      have hfresh : place ++ [name] ∉ pending := fun hmem => by
        have := hpend place name hmem _ _ hfirst
        omega
      have hinner := henter a place ((place ++ [name]) :: pending) target mid (by omega)
        ((hpend.mono (by omega)).cons hfirst) htarget
      simp only [plain, if_false, nameFault?_place hp hnode, hnode, hfresh, hinner]
      exact ih (by omega) (hpend.mono (by omega)) hrest

theorem resolveLink_of_leads (depth : Nat) :
    ∀ n place pending target dest, n < depth → Spares d n pending →
      Leads d n (linkStart place target) (Path.ofString target).names dest →
        d.resolveLink depth place pending target = .ok dest := by
  induction depth with
  | zero => intro n place pending target dest hn; exact absurd hn (Nat.not_lt_zero n)
  | succ depth ih =>
    intro n place pending target dest hn hpend h
    rw [← Path.map_steps] at h
    exact resolveNames_of_leads hp ih (Nat.le_of_lt_succ hn) hpend h

end

theorem resolve_eq_ok {d : Disk} {p q : Path} :
    d.resolve p = .ok q ↔
      d.unlinked p = .ok q ∧ nameFault? q = none ∧ d.locate true q ≠ .error .tooManyLinks := by
  rw [resolve, bind_eq_ok]
  constructor
  · rintro ⟨resolved, hunlinked, h⟩
    split at h
    · cases h
    · cases h
    · next hname hfew => cases h; exact ⟨hunlinked, hname, hfew⟩
  · rintro ⟨hunlinked, hname, hfew⟩
    refine ⟨q, hunlinked, ?_⟩
    rw [hname]
    split
    · cases ‹_›
    · exact absurd ‹_› hfew
    · rfl

/-! ## Files -/

theorem followNames_of_get? {d : Disk} {followLast : Bool}
    {expand : Place → String → List String → Except DiskFault Spot} {node : Node} {names : List String} {place : Place}
    (hup : ".." ∉ names) (hnode : ∀ target, node ≠ .link target) (h : d.root.get? (place ++ names) = some node) :
    d.followNames followLast expand place names = .ok (.taken (place ++ names) node) := by
  induction names generalizing place with
  | nil =>
    rw [List.append_nil] at h ⊢
    exact followNames_nil_eq_ok.2 ⟨node, h, rfl⟩
  | cons name rest ih =>
    obtain ⟨hne, hup⟩ : ".." ≠ name ∧ ".." ∉ rest := by simpa using hup
    have hnext : place ++ name :: rest = (place ++ [name]) ++ rest := by simp
    obtain ⟨here, hhere, hbelow⟩ := Option.bind_eq_some_iff.1 ((Node.get?_append _ _ _).symm.trans h)
    obtain ⟨entries, child, rfl, hchild, hrest⟩ := Node.get?_cons_eq_some.1 hbelow
    rw [hnext] at h ⊢
    rcases child.link_or_solid with ⟨target, rfl⟩ | solid
    · cases rest with
      | nil => exact absurd (Option.some.inj hrest).symm (hnode target)
      | cons => cases hrest
    · rw [followNames_enter hhere hne.symm hchild solid]
      exact ih hup h

section

variable {d : Disk} (hp : d.root.isProper = true) {place : Place} {node : Node} (hfile : node.isFile = true)
include hp hfile

theorem resolve_of_locate {p : Path} (h : d.locate true p = .ok (.taken place node)) :
    d.resolve p = .ok ⟨"/", place⟩ := by
  obtain ⟨n, hn, hl, hnode⟩ := leads_of_locate h
  have hnames : d.resolveNames [] (d.resolveLink maxLinkDepth) (d.start p) (p.names.map fun name => (name, "")) =
      .ok place :=
    resolveNames_of_leads hp (resolveLink_of_leads hp maxLinkDepth) (Nat.le_trans hn (by decide))
      (fun _ _ hmem => absurd hmem List.not_mem_nil) (by simpa [Function.comp_def] using hl)
  have hagain : d.locate true ⟨"/", place⟩ = .ok (.taken place node) :=
    followNames_of_get? (noDots_place hp hnode) (Node.ne_link_of_isFile hfile) hnode
  refine resolve_eq_ok.2 ⟨by rw [unlinked, hnames], nameFault?_place hp hnode, ?_⟩
  rw [hagain]
  simp

/-- The path of a file that can be reached resolves to the place where the file stands. -/
theorem resolve_of_find? {p : Path} (h : d.find? p = some node) :
    ∃ place, d.resolve p = .ok ⟨"/", place⟩ ∧ d.root.get? place = some node := by
  obtain ⟨place, hloc⟩ := locate_of_find? h
  obtain ⟨-, -, -, hnode⟩ := leads_of_locate hloc
  exact ⟨place, resolve_of_locate hp hfile hloc, hnode⟩

/-- The text of the place where a file stands resolves to that place. -/
theorem resolve_place (h : d.root.get? place = some node) :
    d.resolve (.ofString (Path.toString ⟨"/", place⟩)) = .ok ⟨"/", place⟩ := by
  rw [Path.ofString_toString (Node.isProper_of_get? hp h).2]
  exact resolve_of_locate hp hfile
    (followNames_of_get? (noDots_place hp h) (Node.ne_link_of_isFile hfile) h)

end

end Disk

/-! ## Reading -/

namespace SourceText

variable {d : Disk} {p : Path}

theorem read_of_find? {node : Node} (h : d.find? p = some node) : read d p = ofNode p node := by
  obtain ⟨place, hlocate⟩ := Disk.locate_of_find? h
  rw [read, hlocate]

theorem text?_of_find?_eq_none (h : d.find? p = none) : (read d p).text? = none := by
  unfold read
  split
  · next hlocate => rw [Disk.find?, hlocate] at h; cases h
  · rfl
  · rfl

end SourceText
end SourceAudit
