import SealedScript.Proofs.Reading.Meaning

/-! Records. The members of an object may stand in any order, and a field that has a default may be left out or
written with that default; the items of a list stand in the order of the fields. -/

namespace SealedScript.Json.Read

variable {α β : Type} {defaults : List Default}

namespace Fields

/-- What the fields make of a tree: a member is absorbed, and items are taken off the front of a list. A field is
vacant until a member has filled it. -/
structure Means (defaults : List Default) (f : Fields α) (keys : List String)
    (absorb : f.Slots → String → Node → Option f.Slots) (vacant : String → f.Slots → Prop)
    (take : List Node → Option (α × List Node)) : Prop where
  keyed : ∀ {key slots}, f.member key slots = .none ↔ key ∉ keys
  member : ∀ {key slots read node text value rest}, f.member key slots = some read → Gap text (':' :: value) →
    Spelled (.value node) value rest → (read text).toOption = (absorb slots key node).map (·, rest)
  other : ∀ {key}, key ∉ keys → ∀ slots node, absorb slots key node = some slots
  -- the order of members makes no difference
  swap : ∀ slots key node key' node', ((absorb slots key node).bind fun slots' => absorb slots' key' node') =
    (absorb slots key' node').bind fun slots' => absorb slots' key node
  alike : ∀ {node node'}, node.Rewrites defaults node' → ∀ slots key, absorb slots key node = absorb slots key node'
  vacant_none : ∀ key, vacant key f.none
  vacant_absorb : ∀ {key slots key' node slots'}, vacant key slots → key' ≠ key →
    absorb slots key' node = some slots' → vacant key slots'
  -- a vacant field may be filled with its default
  default : ∀ {default slots}, default ∈ defaults → vacant default.key slots →
    ∃ slots', absorb slots default.key default.value = some slots' ∧ f.finish slots' = f.finish slots
  items_ok : ∀ {fresh items text rest a left}, Spelled (.items fresh items) text rest →
    take items = some (a, left) →
    ∃ middle, f.items fresh text = .ok (a, middle) ∧ Spelled (.items false left) middle rest
  items_error : ∀ {fresh items text rest}, Spelled (.items fresh items) text rest → take items = .none →
    ∃ fault, f.items fresh text = .error fault
  items_alike : ∀ {items items'}, List.Forall₂ (Relation.ReflGen (Node.Rewrites defaults)) items items' →
    take items = .none ∧ take items' = .none ∨ ∃ a left left', take items = some (a, left) ∧
      take items' = some (a, left') ∧ List.Forall₂ (Relation.ReflGen (Node.Rewrites defaults)) left left'

def Lawful (defaults : List Default) (f : Fields α) (keys : List String) : Prop :=
  ∃ absorb vacant take, f.Means defaults keys absorb vacant take

section One

variable (key : String) (meaning : Node → Option α)

def absorbOne (slot : Option α) (k : String) (node : Node) : Option (Option α) :=
  if k = key then (if slot.isSome then .none else (meaning node).map some) else some slot

def takeOne (absent : Option α) : List Node → Option (α × List Node)
  | [] => absent.map (·, [])
  | node :: items => (meaning node).map (·, items)

variable {key meaning} {read : Read α}

@[simp] lemma absorbOne_none (node : Node) :
    absorbOne key meaning .none key node = (meaning node).map some := by
  simp [absorbOne]

@[simp] lemma absorbOne_some (a : α) (node : Node) : absorbOne key meaning (some a) key node = .none := by
  simp [absorbOne]

lemma absorbOne_ne {k : String} (hk : k ≠ key) (slot : Option α) (node : Node) :
    absorbOne key meaning slot k node = some slot :=
  if_neg hk

lemma absorbOne_swap (slot : Option α) (k : String) (node : Node) (k' : String) (node' : Node) :
    ((absorbOne key meaning slot k node).bind fun slot' => absorbOne key meaning slot' k' node') =
      (absorbOne key meaning slot k' node').bind fun slot' => absorbOne key meaning slot' k node := by
  by_cases hk : k = key
  · by_cases hk' : k' = key
    · subst hk hk'
      cases slot with
      | none => cases hnode : meaning node <;> cases hnode' : meaning node' <;> simp [hnode, hnode']
      | some a => simp
    · simp [absorbOne_ne hk']
  · simp [absorbOne_ne hk]

lemma one_member {absent slot : Option α} {k : String} {read' : Read (Option α)} {node : Node}
    {text value rest : List Char} (h : read.Means defaults meaning)
    (hmember : (one key read absent).member k slot = some read') (hgap : Gap text (':' :: value))
    (hvalue : Spelled (.value node) value rest) :
    (read' text).toOption = (absorbOne key meaning slot k node).map (·, rest) := by
  by_cases hk : k = key
  · subst hk
    cases slot with
    | some a =>
      obtain rfl : throw .mismatch = read' := by simpa [one] using hmember
      rw [absorbOne_some]
      rfl
    | none =>
      obtain rfl : (do colon; some <$> read) = read' := by simpa [one] using hmember
      rw [absorbOne_none, bind_run, colon_gap hgap, Except.ok_bind, map_run, Except.toOption_bind,
        h.reads hvalue]
      cases meaning node <;> rfl
  · simp [one, hk] at hmember

lemma one_items_nil {fresh : Bool} {text rest : List Char} (h : Spelled (.items fresh []) text rest)
    (absent : Option α) : (one key read absent).items fresh text =
      absent.elim (.error .mismatch) fun a => .ok (a, ']' :: rest) := by
  unfold one
  dsimp only
  rw [bind_run, moreItems_end h, Except.ok_bind]
  cases absent <;> rfl

lemma one_items_cons {fresh : Bool} {node : Node} {items : List Node} {text rest : List Char}
    (h : Spelled (.items fresh (node :: items)) text rest) (absent : Option α) :
    ∃ token middle, (one key read absent).items fresh text = read token ∧ Spelled (.value node) token middle ∧
      Spelled (.items false items) middle rest := by
  obtain ⟨token, middle, hmore, hnode, hrest, -⟩ := moreItems_more h
  refine ⟨token, middle, ?_, hnode, hrest⟩
  unfold one
  dsimp only
  rw [bind_run, hmore]
  rfl

/-- A default for the key has to be read as the value that is taken in its place. -/
lemma one_lawful (h : read.Lawful defaults) {absent : Option α}
    (hdefault : ∀ default ∈ defaults, default.key = key → ∃ a text rest, absent = some a ∧
      Spelled (.value default.value) text rest ∧ read text = .ok (a, rest)) :
    (one key read absent).Lawful defaults [key] := by
  obtain ⟨meaning, h⟩ := h
  refine ⟨absorbOne key meaning, fun k slot => k = key → slot = Option.none, takeOne meaning absent, ?_⟩
  constructor
  case keyed =>
    intro k slots
    by_cases hk : k = key
    · simp [one, hk]
    · simp [one, hk]
  case member => exact one_member h
  case other =>
    intro k hk slots node
    rw [List.mem_singleton] at hk
    exact absorbOne_ne hk slots node
  case swap => exact absorbOne_swap
  case alike =>
    intro node node' hstep slots k
    unfold absorbOne
    rw [h.alike hstep]
  case vacant_none => exact fun _ _ => rfl
  case vacant_absorb =>
    intro k slots k' node slots' hvacant hne habsorb hk
    have hsame : absorbOne key meaning slots k' node = some slots := absorbOne_ne (hk ▸ hne) slots node
    exact (Option.some.inj (hsame.symm.trans habsorb)).symm.trans (hvacant hk)
  case default =>
    intro default slots hmem hvacant
    by_cases hk : default.key = key
    · obtain ⟨a, text, rest, rfl, htext, hread⟩ := hdefault default hmem hk
      have hslots : slots = Option.none := hvacant hk
      have hmeaning : meaning default.value = some a := by
        have hreads := h.reads htext
        rw [hread] at hreads
        cases hvalue : meaning default.value with
        | none => rw [hvalue] at hreads; cases hreads
        | some b => rw [hvalue] at hreads; cases hreads; rfl
      refine ⟨some a, ?_, ?_⟩
      · rw [hk, hslots, absorbOne_none, hmeaning]
        rfl
      · rw [hslots]
        rfl
    · exact ⟨slots, absorbOne_ne hk slots _, rfl⟩
  case items_ok =>
    intro fresh items text rest a left htext htake
    cases items with
    | nil =>
      obtain ⟨b, rfl, hpair⟩ := Option.map_eq_some_iff.mp htake
      cases hpair
      exact ⟨']' :: rest, one_items_nil htext _, .noItems (.none _)⟩
    | cons node items =>
      obtain ⟨b, hmeaning, hpair⟩ := Option.map_eq_some_iff.mp htake
      cases hpair
      obtain ⟨token, middle, hitems, hnode, hrest⟩ := one_items_cons htext absent
      exact ⟨middle, hitems.trans (h.ok hnode hmeaning), hrest⟩
  case items_error =>
    intro fresh items text rest htext htake
    cases items with
    | nil =>
      obtain rfl := Option.map_eq_none_iff.mp htake
      exact ⟨.mismatch, one_items_nil htext _⟩
    | cons node items =>
      obtain ⟨token, middle, hitems, hnode, -⟩ := one_items_cons htext absent
      obtain ⟨fault, hfault⟩ := h.error hnode (Option.map_eq_none_iff.mp htake)
      exact ⟨fault, hitems.trans hfault⟩
  case items_alike =>
    intro items items' halike
    cases halike with
    | nil =>
      cases absent with
      | none => exact .inl ⟨rfl, rfl⟩
      | some a => exact .inr ⟨a, [], [], rfl, rfl, .nil⟩
    | @cons node node' items items' hnode hitems =>
      have hmeaning : meaning node = meaning node' := by
        cases hnode with
        | refl => rfl
        | single hstep => exact h.alike hstep
      simp only [takeOne, hmeaning]
      cases meaning node' with
      | none => exact .inl ⟨rfl, rfl⟩
      | some a => exact .inr ⟨a, items, items', rfl, rfl, hitems⟩

end One

section And

variable {f : Fields α} {g : Fields β} {keys keys' : List String}

/-- Both of two results, if there are both. -/
def both {σ τ : Type} (x : Option σ) (y : Option τ) : Option (σ × τ) :=
  x.bind fun s => y.map (s, ·)

lemma both_bind {σ τ σ' τ' : Type} (x : Option σ) (y : Option τ) (k : σ → Option σ') (l : τ → Option τ') :
    (both x y).bind (fun p => both (k p.1) (l p.2)) = both (x.bind k) (y.bind l) := by
  cases x with
  | none => rfl
  | some s =>
    cases y with
    | none => cases h : k s <;> simp [both, h]
    | some t => rfl

lemma both_eq_some_iff {σ τ : Type} {x : Option σ} {y : Option τ} {p : σ × τ} :
    both x y = some p ↔ x = some p.1 ∧ y = some p.2 := by
  cases x <;> cases y <;> simp [both, Prod.ext_iff]

lemma and_member_eq_none_iff {key : String} {s : f.Slots} {t : g.Slots} :
    (f.and g).member key (s, t) = .none ↔ f.member key s = .none ∧ g.member key t = .none := by
  cases hf : f.member key s <;> cases hg : g.member key t <;> simp [Fields.and, hf, hg]

/-- A member that belongs to one of two records is passed over by the other one. -/
lemma Means.and_member {absorbF vacantF takeF absorbG vacantG takeG}
    (hf : f.Means defaults keys absorbF vacantF takeF) (hg : g.Means defaults keys' absorbG vacantG takeG)
    (hdisjoint : keys.Disjoint keys') {key : String} {s : f.Slots} {t : g.Slots}
    {read : Read (f.Slots × g.Slots)} (hmember : (f.and g).member key (s, t) = some read) {node : Node}
    {text value rest : List Char} (hgap : Gap text (':' :: value)) (hvalue : Spelled (.value node) value rest) :
    (read text).toOption = (both (absorbF s key node) (absorbG t key node)).map (·, rest) := by
  cases hreadF : f.member key s with
  | some readF =>
    have hkey : key ∈ keys := by
      by_contra hkey
      rw [hf.keyed.mpr hkey] at hreadF
      cases hreadF
    have hread : (f.and g).member key (s, t) = some (do return (← readF, t)) := by simp only [Fields.and, hreadF]
    obtain rfl := Option.some.inj (hread.symm.trans hmember)
    rw [hg.other (hdisjoint hkey), bind_run, Except.toOption_bind, hf.member hreadF hgap hvalue]
    cases absorbF s key node <;> rfl
  | none =>
    cases hreadG : g.member key t with
    | some readG =>
      have hread : (f.and g).member key (s, t) = some (do return (s, ← readG)) := by
        simp only [Fields.and, hreadF, hreadG]
      obtain rfl := Option.some.inj (hread.symm.trans hmember)
      rw [hf.other (hf.keyed.mp hreadF), bind_run, Except.toOption_bind, hg.member hreadG hgap hvalue]
      cases absorbG t key node <;> rfl
    | none =>
      rw [and_member_eq_none_iff.mpr ⟨hreadF, hreadG⟩] at hmember
      cases hmember

/-- The fields of either record keep out of those of the other one. -/
lemma Lawful.and (hf : f.Lawful defaults keys) (hg : g.Lawful defaults keys') (hdisjoint : keys.Disjoint keys') :
    (f.and g).Lawful defaults (keys ++ keys') := by
  obtain ⟨absorbF, vacantF, takeF, hf⟩ := hf
  obtain ⟨absorbG, vacantG, takeG, hg⟩ := hg
  refine ⟨fun slots key node => both (absorbF slots.1 key node) (absorbG slots.2 key node),
    fun key slots => vacantF key slots.1 ∧ vacantG key slots.2,
    fun items => (takeF items).bind fun p => (takeG p.2).map fun q => ((p.1, q.1), q.2), ?_⟩
  constructor
  case keyed =>
    rintro key ⟨s, t⟩
    rw [List.mem_append, not_or, ← hf.keyed, ← hg.keyed]
    exact and_member_eq_none_iff
  case member =>
    rintro key ⟨s, t⟩ read node text value rest hmember hgap hvalue
    exact hf.and_member hg hdisjoint hmember hgap hvalue
  case other =>
    intro key hkey slots node
    rw [List.mem_append, not_or] at hkey
    rw [hf.other hkey.1, hg.other hkey.2]
    rfl
  case swap =>
    rintro ⟨s, t⟩ key node key' node'
    have hswap := congrArg₂ both (hf.swap s key node key' node') (hg.swap t key node key' node')
    exact (both_bind _ _ _ _).trans (hswap.trans (both_bind _ _ _ _).symm)
  case alike =>
    intro node node' hstep slots key
    rw [hf.alike hstep, hg.alike hstep]
  case vacant_none => exact fun key => ⟨hf.vacant_none key, hg.vacant_none key⟩
  case vacant_absorb =>
    intro key slots key' node slots' hvacant hne habsorb
    obtain ⟨hs, ht⟩ := both_eq_some_iff.mp habsorb
    exact ⟨hf.vacant_absorb hvacant.1 hne hs, hg.vacant_absorb hvacant.2 hne ht⟩
  case default =>
    rintro default ⟨s, t⟩ hmem ⟨hs, ht⟩
    obtain ⟨s', habsorbF, hfinishF⟩ := hf.default hmem hs
    obtain ⟨t', habsorbG, hfinishG⟩ := hg.default hmem ht
    refine ⟨(s', t'), both_eq_some_iff.mpr ⟨habsorbF, habsorbG⟩, ?_⟩
    simp only [Fields.and, hfinishF, hfinishG]
  case items_ok =>
    intro fresh items text rest p left htext htake
    obtain ⟨⟨a, middle⟩, hF, htake⟩ := Option.bind_eq_some_iff.mp htake
    obtain ⟨⟨b, left'⟩, hG, hpair⟩ := Option.map_eq_some_iff.mp htake
    cases hpair
    obtain ⟨text', hitemsF, htext'⟩ := hf.items_ok htext hF
    obtain ⟨text'', hitemsG, htext''⟩ := hg.items_ok htext' hG
    refine ⟨text'', ?_, htext''⟩
    simp only [Fields.and, bind_run, hitemsF, hitemsG, Except.ok_bind]
    rfl
  case items_error =>
    intro fresh items text rest htext htake
    cases hF : takeF items with
    | none =>
      obtain ⟨fault, hfault⟩ := hf.items_error htext hF
      refine ⟨fault, ?_⟩
      simp only [Fields.and, bind_run, hfault]
      rfl
    | some p =>
      obtain ⟨text', hitemsF, htext'⟩ := hf.items_ok htext hF
      rw [hF] at htake
      obtain ⟨fault, hfault⟩ := hg.items_error htext' (Option.map_eq_none_iff.mp htake)
      refine ⟨fault, ?_⟩
      simp only [Fields.and, bind_run, hitemsF, Except.ok_bind, hfault]
      rfl
  case items_alike =>
    intro items items' halike
    rcases hf.items_alike halike with ⟨hF, hF'⟩ | ⟨a, left, left', hF, hF', hleft⟩
    · exact .inl ⟨by rw [hF]; rfl, by rw [hF']; rfl⟩
    rcases hg.items_alike hleft with ⟨hG, hG'⟩ | ⟨b, more, more', hG, hG', hmore⟩
    · left
      simp [hF, hF', hG, hG']
    · exact .inr ⟨(a, b), more, more', by simp [hF, hG], by simp [hF', hG'], hmore⟩

end And

section Members

variable {f : Fields α} {keys : List String} {absorb : f.Slots → String → Node → Option f.Slots}
  {vacant : String → f.Slots → Prop} {take : List Node → Option (α × List Node)}

/-- Absorbs the members one after the other; all their keys have to be readable. -/
def gather (absorb : f.Slots → String → Node → Option f.Slots) (slots : f.Slots)
    (members : List (Reading String × Node)) : Option f.Slots :=
  members.foldlM (fun slots member => member.1.known?.bind fun key => absorb slots key member.2) slots

lemma gather_cons (slots : f.Slots) (member : Reading String × Node) (members : List (Reading String × Node)) :
    gather absorb slots (member :: members) =
      (member.1.known?.bind fun key => absorb slots key member.2).bind fun slots' => gather absorb slots' members :=
  rfl

lemma gather_append (slots : f.Slots) (members members' : List (Reading String × Node)) :
    gather absorb slots (members ++ members') =
      (gather absorb slots members).bind fun slots' => gather absorb slots' members' :=
  List.foldlM_append

namespace Means

lemma gather_perm (h : f.Means defaults keys absorb vacant take) {members members' : List (Reading String × Node)}
    (hperm : members.Perm members') (slots : f.Slots) :
    gather absorb slots members = gather absorb slots members' := by
  induction hperm generalizing slots with
  | nil => rfl
  | cons member _ ih => simp only [gather_cons, ih]
  | swap member member' members =>
    simp only [gather_cons, ← Option.bind_assoc]
    congr 1
    obtain ⟨key, node⟩ := member
    obtain ⟨key', node'⟩ := member'
    cases key with
    | unreadable => cases key' <;> simp [Reading.known?]
    | known key =>
      cases key' with
      | unreadable => simp [Reading.known?]
      | known key' => exact h.swap slots key' node' key node
  | trans _ _ ih ih' => exact (ih slots).trans (ih' slots)

lemma gather_alike (h : f.Means defaults keys absorb vacant take) {node node' : Node}
    (hstep : node.Rewrites defaults node') (slots : f.Slots) (key : Reading String)
    (before after : List (Reading String × Node)) :
    gather absorb slots (before ++ (key, node) :: after) =
      gather absorb slots (before ++ (key, node') :: after) := by
  simp only [gather_append, gather_cons, h.alike hstep]

lemma vacant_gather (h : f.Means defaults keys absorb vacant take) {key : String}
    {members : List (Reading String × Node)} (hlacks : .known key ∉ members.map Prod.fst) {slots slots' : f.Slots}
    (hvacant : vacant key slots) (hgather : gather absorb slots members = some slots') : vacant key slots' := by
  induction members generalizing slots with
  | nil =>
    cases hgather
    exact hvacant
  | cons member members ih =>
    rw [gather_cons] at hgather
    obtain ⟨middle, hmember, hgather⟩ := Option.bind_eq_some_iff.mp hgather
    obtain ⟨key', hkey', habsorb⟩ := Option.bind_eq_some_iff.mp hmember
    rw [List.map_cons, List.mem_cons, not_or] at hlacks
    have hne : key' ≠ key := by
      rintro rfl
      exact hlacks.1 (Reading.known?_eq_some_iff.mp hkey').symm
    exact ih hlacks.2 (h.vacant_absorb hvacant hne habsorb) hgather

/-- A default that is written out changes nothing in the end. -/
lemma finish_default (h : f.Means defaults keys absorb vacant take) {default : Default}
    (hdefault : default ∈ defaults) {members : List (Reading String × Node)}
    (hlacks : .known default.key ∉ members.map Prod.fst) :
    ((gather absorb f.none members).bind fun slots => (f.finish slots).toOption) =
      (gather absorb f.none (members ++ [(.known default.key, default.value)])).bind fun slots =>
        (f.finish slots).toOption := by
  rw [gather_append]
  cases hgather : gather absorb f.none members with
  | none => rfl
  | some slots =>
    have hvacant := h.vacant_gather hlacks (h.vacant_none _) hgather
    obtain ⟨slots', habsorb, hfinish⟩ := h.default hdefault hvacant
    have hlast : gather absorb slots [(.known default.key, default.value)] = some slots' := by
      simp [gather, Reading.known?, habsorb]
    simp only [Option.bind_some, hlast, hfinish]

end Means

/-- No member follows. -/
lemma moreMembers_end {fresh : Bool} {text rest : List Char} (h : Spelled (.members fresh []) text rest) :
    moreMembers fresh text = .ok (false, '\x7d' :: rest) := by
  cases h with
  | noMembers hgap =>
    unfold moreMembers
    rw [bind_run, hgap.solid (by decide)]
    rfl

/-- What stands behind the opening quote of a member. -/
def MemberRest (member : Reading String × Node) (text rest : List Char) : Prop :=
  ∃ behind value, (quotedRest text).toOption = member.1.known?.map (·, behind) ∧ Gap behind (':' :: value) ∧
    Spelled (.value member.2) value rest

lemma memberRest_of_spelled {member : Reading String × Node} {text rest : List Char}
    (h : Spelled (.member member) text rest) : ∃ tail, Gap text ('"' :: tail) ∧ MemberRest member tail rest := by
  cases h with
  | member hgap hraw hcolon hvalue => exact ⟨_, hgap, _, _, quotedRest_toOption hraw _, hcolon, hvalue⟩

/-- Another member follows, without the comma and the white space in front of it. -/
lemma moreMembers_more {fresh : Bool} {member : Reading String × Node} {members : List (Reading String × Node)}
    {text rest : List Char} (h : Spelled (.members fresh (member :: members)) text rest) :
    ∃ tail middle, moreMembers fresh text = .ok (true, '"' :: tail) ∧ MemberRest member tail middle ∧
      Spelled (.members false members) middle rest ∧ middle.length < text.length := by
  cases h with
  | firstMember hmember hrest =>
    obtain ⟨tail, hgap, htail⟩ := memberRest_of_spelled hmember
    refine ⟨tail, _, ?_, htail, hrest, hmember.length_lt⟩
    unfold moreMembers
    rw [bind_run, hgap.solid (by decide)]
    rfl
  | nextMember hcomma hmember hrest =>
    obtain ⟨tail, hgap, htail⟩ := memberRest_of_spelled hmember
    refine ⟨tail, _, ?_, htail, hrest,
      Nat.lt_of_lt_of_le (Nat.lt_succ_of_lt hmember.length_lt) hcomma.length_le⟩
    unfold moreMembers
    rw [bind_run, hcomma.solid (by decide), Except.ok_bind]
    change (do advance; if (← solid) = '"' then return true else throw .malformed : Read Bool) _ = _
    rw [bind_run, advance_run, Except.ok_bind, bind_run, hgap.solid (by decide)]
    rfl

/-- One turn absorbs one member; what is no field is passed over. -/
lemma Means.memberTurn_more (h : f.Means defaults keys absorb vacant take) {fresh : Bool} {slots : f.Slots}
    {member : Reading String × Node} {text tail rest : List Char}
    (hmore : moreMembers fresh text = .ok (true, '"' :: tail)) (hmember : MemberRest member tail rest) :
    (memberTurn f (fresh, slots) text).toOption =
      (member.1.known?.bind fun key => absorb slots key member.2).map
        fun slots' => (.inl (false, slots'), rest) := by
  obtain ⟨behind, value, hkey, hcolon, hvalue⟩ := hmember
  unfold memberTurn
  dsimp only
  rw [bind_run, hmore, Except.ok_bind, if_pos rfl, bind_run, advance_run, Except.ok_bind, bind_run,
    Except.toOption_bind, hkey]
  cases member.1.known? with
  | none => rfl
  | some key =>
    simp only [Option.map_some, Option.bind_some]
    cases hread : f.member key slots with
    | some read =>
      dsimp only
      rw [bind_run, Except.toOption_bind, h.member hread hcolon hvalue]
      cases absorb slots key member.2 <;> rfl
    | none =>
      dsimp only
      rw [h.other (h.keyed.mp hread), bind_run, colon_gap hcolon, Except.ok_bind, bind_run,
        skipValue_run hvalue]
      rfl

lemma Means.iterate_memberTurn (h : f.Means defaults keys absorb vacant take)
    {members : List (Reading String × Node)} {fresh : Bool} {slots : f.Slots} {bound text rest : List Char}
    (hbound : text.length ≤ bound.length) (htext : Spelled (.members fresh members) text rest) :
    (iterate (memberTurn f) bound (fresh, slots) text).toOption =
      (gather absorb slots members).map (·, '\x7d' :: rest) := by
  induction members generalizing bound fresh slots text with
  | nil =>
    have hturn : memberTurn f (fresh, slots) text = .ok (.inr slots, '\x7d' :: rest) := by
      unfold memberTurn
      dsimp only
      rw [bind_run, moreMembers_end htext]
      rfl
    cases bound with
    | nil => rw [iterate, bind_run, hturn]; rfl
    | cons b bound => rw [iterate, bind_run, hturn]; rfl
  | cons member members ih =>
    obtain ⟨tail, middle, hmore, hmember, hrest, hlt⟩ := moreMembers_more htext
    cases bound with
    | nil => exact absurd (Nat.lt_of_lt_of_le hlt hbound) (Nat.not_lt_zero _)
    | cons b bound =>
      rw [iterate, bind_run, Except.toOption_bind, h.memberTurn_more hmore hmember, gather_cons]
      cases member.1.known?.bind fun key => absorb slots key member.2 with
      | none => rfl
      | some slots' => exact ih (Nat.le_of_lt_succ (Nat.lt_of_lt_of_le hlt hbound)) hrest

/-- The members of an object, up to its closing brace. -/
lemma Means.members_run (h : f.Means defaults keys absorb vacant take) {members : List (Reading String × Node)}
    {text rest : List Char} (htext : Spelled (.members true members) text rest) :
    (f.members text).toOption =
      ((gather absorb f.none members).bind fun slots => (f.finish slots).toOption).map (·, '\x7d' :: rest) := by
  have hloop : (iterate (memberTurn f) text (true, f.none) text).toOption =
      (gather absorb f.none members).map (·, '\x7d' :: rest) := h.iterate_memberTurn (Nat.le_refl _) htext
  refine (Except.toOption_bind _ _).trans ((congrArg (Option.bind · _) hloop).trans ?_)
  cases gather absorb f.none members with
  | none => rfl
  | some slots => cases hfinish : f.finish slots <;> simp [hfinish]

end Members

end Fields

section Records

variable {f : Fields α} {keys : List String} {absorb : f.Slots → String → Node → Option f.Slots}
  {vacant : String → f.Slots → Prop} {take : List Node → Option (α × List Node)}

/-- A bracket closes only if nothing is left. -/
lemma closing_items {items : List Node} {text rest : List Char} (h : Spelled (.items false items) text rest) :
    (closing ']' text).toOption = if items.isEmpty then some ((), rest) else none := by
  unfold closing
  cases h with
  | noItems hgap =>
    rw [bind_run, hgap.solid (by decide)]
    rfl
  | nextItem hgap =>
    rw [bind_run, hgap.solid (by decide)]
    rfl

lemma closing_members {members : List (Reading String × Node)} {text rest : List Char}
    (h : Spelled (.members false members) text rest) :
    (closing '\x7d' text).toOption = if members.isEmpty then some ((), rest) else none := by
  unfold closing
  cases h with
  | noMembers hgap =>
    rw [bind_run, hgap.solid (by decide)]
    rfl
  | nextMember hgap =>
    rw [bind_run, hgap.solid (by decide)]
    rfl

/-- A list of exactly the fields. -/
def whole (take : List Node → Option (α × List Node)) (items : List Node) : Option α :=
  (take items).bind fun p => if p.2.isEmpty then some p.1 else none

lemma forall₂_reflGen {node node' : Node} (h : node.Rewrites defaults node') (before after : List Node) :
    List.Forall₂ (Relation.ReflGen (Node.Rewrites defaults)) (before ++ node :: after)
      (before ++ node' :: after) := by
  induction before with
  | nil => exact .cons (.single h) (List.forall₂_same.mpr fun _ _ => .refl)
  | cons first before ih => exact .cons .refl ih

lemma Fields.Means.whole_alike (h : f.Means defaults keys absorb vacant take) {node node' : Node}
    (hstep : node.Rewrites defaults node') (before after : List Node) :
    whole take (before ++ node :: after) = whole take (before ++ node' :: after) := by
  unfold whole
  rcases h.items_alike (forall₂_reflGen hstep before after) with
    ⟨hnone, hnone'⟩ | ⟨a, left, left', hsome, hsome', hleft⟩
  · rw [hnone, hnone']
  · rw [hsome, hsome']
    cases hleft <;> rfl

/-- The fields as a list, up to its closing bracket. -/
lemma Fields.Means.items_run (h : f.Means defaults keys absorb vacant take) {items : List Node}
    {text rest : List Char} (htext : Spelled (.items true items) text rest) :
    ((do let value ← f.items true; closing ']'; return value : Read α) text).toOption =
      (whole take items).map (·, rest) := by
  rw [bind_run]
  cases htake : take items with
  | none =>
    obtain ⟨fault, hfault⟩ := h.items_error htext htake
    rw [hfault, whole, htake]
    rfl
  | some p =>
    obtain ⟨a, left⟩ := p
    obtain ⟨middle, hitems, hmiddle⟩ := h.items_ok htext htake
    rw [hitems, whole, htake, Except.ok_bind, bind_run, Except.toOption_bind, closing_items hmiddle]
    cases left <;> rfl

lemma means_tuple {depth : Nat} {fields : (inner : Nat) → inner < depth + 1 → Fields α} {absorb vacant}
    (h : (fields depth (Nat.lt_succ_self depth)).Means defaults keys absorb vacant take) :
    Means defaults (tuple (depth + 1) fields) (Node.container? (whole take) fun _ => none) := by
  constructor
  · intro node text rest htext
    cases node with
    | arr items =>
      cases htext with
      | value hgap htoken =>
        cases htoken with
        | arr hitems =>
          unfold tuple
          rw [bind_run, hgap.solid (by decide), Except.ok_bind, if_pos rfl, enter_run]
          exact h.items_run hitems
    | bool | null | number | str | obj => exact refused_of_lead (by simp [Node.Leads]) htext
  · intro node node' hstep
    cases hstep with
    | item before after hnode => exact h.whole_alike hnode before after
    | member | reordered | defaulted => rfl

lemma lawful_tuple {depth : Nat} {fields : (inner : Nat) → inner < depth → Fields α}
    (h : ∀ inner hinner, ∃ keys, (fields inner hinner).Lawful defaults keys) :
    Lawful defaults (tuple depth fields) := by
  cases depth with
  | zero => exact (yields_tuple fun inner hinner => absurd hinner (Nat.not_lt_zero inner)).lawful
  | succ depth =>
    obtain ⟨keys, absorb, vacant, take, h⟩ := h depth (Nat.lt_succ_self depth)
    exact ⟨_, means_tuple h⟩

/-- A record that is no object is read as a list. -/
lemma record_of_lead {depth : Nat} {fields : (inner : Nat) → inner < depth → Fields α} {node : Node}
    {text rest : List Char} (htext : Spelled (.value node) text rest) (hnode : ¬ node.Leads '\x7b') :
    record depth fields text = tuple depth fields text := by
  obtain ⟨c, tail, hgap, -, hlead⟩ := htext.token
  have hc : c ≠ '\x7b' := by
    rintro rfl
    exact hnode hlead
  unfold record
  rw [bind_run, hgap.solid hlead.not_blank, Except.ok_bind, if_neg hc]
  unfold tuple
  rw [bind_run, bind_run, hgap.solid hlead.not_blank, solid_run hlead.not_blank]

/-- Only one more bracket is opened, so only the fields at the next depth matter. -/
lemma lawful_record {depth : Nat} {fields : (inner : Nat) → inner < depth → Fields α}
    (h : ∀ inner hinner, depth = inner + 1 → ∃ keys, (fields inner hinner).Lawful defaults keys) :
    Lawful defaults (record depth fields) := by
  cases depth with
  | zero => exact (yields_record fun inner hinner => absurd hinner (Nat.not_lt_zero inner)).lawful
  | succ depth =>
    obtain ⟨keys, absorb, vacant, take, h⟩ := h depth (Nat.lt_succ_self depth) rfl
    refine ⟨Node.container? (whole take) fun members =>
      (Fields.gather absorb (fields depth _).none members).bind fun slots =>
        ((fields depth _).finish slots).toOption, ?_, ?_⟩
    · intro node text rest htext
      cases node with
      | obj members =>
        cases htext with
        | value hgap htoken =>
          cases htoken with
          | obj hmembers =>
            unfold record
            rw [bind_run, hgap.solid (by decide), Except.ok_bind, if_pos rfl, enter_run, bind_run,
              Except.toOption_bind, h.members_run hmembers, Node.container?]
            cases (Fields.gather absorb _ members).bind fun slots => Except.toOption (Fields.finish _ slots) with
            | none => rfl
            | some value => simp [closing_run '\x7d' (by decide)]
      | null | bool | number | str | arr =>
        rw [record_of_lead htext (by simp [Node.Leads])]
        exact (means_tuple h).reads htext
    · intro node node' hstep
      cases hstep with
      | item before after hnode => exact h.whole_alike hnode before after
      | member key before after hnode =>
        exact congrArg (Option.bind · _) (h.gather_alike hnode _ key before after)
      | reordered hperm => exact congrArg (Option.bind · _) (h.gather_perm hperm _)
      | defaulted hdefault howner hlacks => exact h.finish_default hdefault hlacks

/-- Where no bracket may be opened inside the record, it is enough that one of its fields needs one. -/
lemma lawful_record_of_pos {depth : Nat} {fields : (inner : Nat) → inner < depth → Fields α}
    (hzero : ∀ hinner, (fields 0 hinner).Yields fun _ => False)
    (h : ∀ inner hinner, 0 < inner → ∃ keys, (fields inner hinner).Lawful defaults keys) :
    Lawful defaults (record depth fields) := by
  by_cases hdepth : depth = 1
  · subst hdepth
    refine (yields_record fun inner hinner => ?_).lawful
    obtain rfl : inner = 0 := Nat.lt_one_iff.mp hinner
    exact hzero hinner
  · exact lawful_record fun inner hinner heq => h inner hinner (by omega)

end Records

end SealedScript.Json.Read
