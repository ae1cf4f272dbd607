import Nexus.Plugins.PluginPolicy
import Mathlib.Data.List.TakeDrop
import Mathlib.Data.List.TakeWhile

/-!
# Whose namespace a plugin topic is in

The id of a plugin may have dots, so the namespace of one id may lie inside the namespace of
another one: `acme` owns every topic of `acme.audit`. Two plugins share no topic exactly when
neither id continues the other one after a dot, up to ids with a segment that no topic can have.
-/

set_option autoImplicit false

namespace Nexus

namespace EventTopics

/-! ## Texts -/

section Texts

variable {text start ending : String} {xs ys : List Char}

theorem startsWith_iff : startsWith text start = true ↔ start.toList <+: text.toList := by
  rw [startsWith, decide_eq_true_eq]

theorem endsWith_iff : endsWith text ending = true ↔ ending.toList <:+ text.toList := by
  rw [endsWith, decide_eq_true_eq]

theorem withoutWildcard_append (h : endsWith text suffixWildcard = true) :
    (withoutWildcard text).toList ++ suffixWildcard.toList = text.toList := by
  obtain ⟨body, hbody⟩ := endsWith_iff.1 h
  rw [withoutWildcard, String.toList_ofList, ← hbody, List.length_append, Nat.add_sub_cancel,
    List.take_left']
  rfl

/-- A text before a dot is shorter than another one, or they are the same. -/
theorem dot_prefix_of_ne (h : xs ++ ['.'] <+: ys ++ ['.']) (hne : xs ≠ ys) : xs ++ ['.'] <+: ys := by
  rcases List.prefix_concat_iff.1 h with h | h
  · exact absurd (List.append_cancel_right h) hne
  · exact h

theorem topicSegments_append (xs ys : List Char) :
    topicSegments (xs ++ '.' :: ys) = topicSegments xs ++ topicSegments ys := by
  rw [topicSegments, Parts.splitOn_append_sep, List.filter_append]
  rfl

theorem topicSegments_of_plain (hne : xs ≠ []) (hdot : '.' ∉ xs) : topicSegments xs = [xs] := by
  rw [topicSegments, List.splitOn_eq_singleton hdot]
  simp [hne]

/-- The characters of a segment come from the text. -/
theorem subset_of_mem_topicSegments {segment : List Char} (h : segment ∈ topicSegments xs) :
    segment ⊆ xs := Parts.subset_of_mem_splitOn (List.mem_filter.1 h).1

end Texts

/-! ## Namespace topics -/

section Namespaces

variable {cs : List Char} {topic p q : String}

theorem isEnclosed_mono {inner inner' : Char → Bool} (hmono : ∀ c, inner c = true → inner' c = true)
    (h : isEnclosed inner cs = true) : isEnclosed inner' cs = true := by
  simp only [isEnclosed, Bool.and_eq_true, List.all_eq_true] at h ⊢
  exact ⟨h.1, fun c hc => hmono c (h.2 c hc)⟩

theorem isPluginId_of_segment (h : isTopicSegment cs = true) : isPluginId cs = true := by
  apply isEnclosed_mono _ h
  intro c hc
  simp only [Bool.or_eq_true] at hc ⊢
  rcases hc with (hc | hc) | hc
  · exact .inl (.inl (.inl hc))
  · exact .inl (.inl (.inr hc))
  · exact .inr hc

/-- An id without a dot is a segment. -/
theorem isTopicSegment_of_id (h : isPluginId cs = true) (hdot : '.' ∉ cs) :
    isTopicSegment cs = true := by
  simp only [isPluginId, isTopicSegment, isEnclosed, Bool.and_eq_true, List.all_eq_true,
    Bool.or_eq_true, decide_eq_true_eq] at h ⊢
  refine ⟨h.1, fun c hc => ?_⟩
  rcases h.2 c hc with ((hchar | hchar) | hchar) | hchar
  · exact .inl (.inl hchar)
  · exact .inl (.inr hchar)
  · exact absurd (hchar ▸ hc) hdot
  · exact .inr hchar

theorem isPluginId_ne_nil (h : isPluginId cs = true) : cs ≠ [] := by
  rintro rfl
  cases h

theorem isPluginId_head {c : Char} (h : isPluginId (c :: cs) = true) : c ≠ '.' := by
  rintro rfl
  simp [isPluginId, isEnclosed, isAlphanumeric] at h

theorem star_not_mem_of_isPluginId (h : isPluginId cs = true) : '*' ∉ cs := by
  intro hmem
  simp only [isPluginId, isEnclosed, Bool.and_eq_true, List.all_eq_true] at h
  exact absurd (h.2 '*' hmem) (by decide)

/-- The characters before the first dot and those after it. -/
theorem span_dot_iff {id tail : List Char} {dot : Char} :
    cs.span (fun c => c ≠ '.') = (id, dot :: tail) ↔
      dot = '.' ∧ cs = id ++ '.' :: tail ∧ '.' ∉ id := by
  rw [List.span_eq_takeWhile_dropWhile, Prod.mk.injEq]
  constructor
  · rintro ⟨htake, hdrop⟩
    have hdot : dot = '.' := by
      have hhead := List.head?_dropWhile_not (fun c => decide (c ≠ '.')) cs
      rw [hdrop] at hhead
      simpa using hhead
    have happend := List.takeWhile_append_dropWhile (p := fun c => decide (c ≠ '.')) (l := cs)
    rw [htake, hdrop, hdot] at happend
    refine ⟨hdot, happend.symm, fun hmem => ?_⟩
    rw [← htake] at hmem
    simpa using List.mem_takeWhile_imp hmem
  · rintro ⟨rfl, rfl, hdot⟩
    have hall : ∀ c ∈ id, decide (c ≠ '.') = true := by
      intro c hc
      simpa using fun h : c = '.' => hdot (h ▸ hc)
    rw [List.takeWhile_append_of_pos hall, List.dropWhile_append_of_pos hall]
    simp

/-- What a topic of the namespace is made of. -/
theorem isPluginNamespaceTopic_iff : isPluginNamespaceTopic topic = true ↔
    ∃ id tail, topic.toList = pluginTopicPrefix.toList ++ (id ++ '.' :: tail) ∧ '.' ∉ id ∧
      isPluginId id = true ∧ isAllowedEventTopicTail (String.ofList tail) = true := by
  unfold isPluginNamespaceTopic
  constructor
  · intro h
    split at h
    · cases h
    · rename_i hstarts
      rw [Bool.not_eq_true, Bool.not_eq_false', startsWith_iff] at hstarts
      obtain ⟨rest, hrest⟩ := hstarts
      rw [← hrest, List.drop_left' rfl] at h
      split at h
      · cases h
      · rename_i id dot tail hspan
        obtain ⟨-, hparts, hdot⟩ := span_dot_iff.1 hspan
        simp only [Bool.and_eq_true] at h
        exact ⟨id, tail, by rw [← hrest, hparts], hdot, h.1.2, h.2⟩
  · rintro ⟨id, tail, htopic, hdot, hid, htail⟩
    have hstarts : startsWith topic pluginTopicPrefix = true := by
      rw [startsWith_iff, htopic]
      exact List.prefix_append _ _
    rw [hstarts, htopic, List.drop_left' rfl, span_dot_iff.2 ⟨rfl, rfl, hdot⟩]
    simp [isPluginId_ne_nil hid, hid, htail]

theorem owns_iff : doesPluginOwnNamespaceTopic p topic = true ↔
    isPluginId p.toList = true ∧ isPluginNamespaceTopic topic = true ∧
      pluginTopicPrefix.toList ++ (p.toList ++ ['.']) <+: topic.toList := by
  unfold doesPluginOwnNamespaceTopic
  have hlist : (pluginTopicPrefix ++ p ++ ".").toList =
      pluginTopicPrefix.toList ++ (p.toList ++ ['.']) := by
    simp [String.toList_append]
  split
  · rename_i h
    simp only [Bool.or_eq_true, Bool.not_eq_true'] at h
    constructor
    · rintro ⟨⟩
    · rintro ⟨hid, htopic, -⟩
      simp [hid, htopic] at h
  · rename_i h
    simp only [Bool.or_eq_true, Bool.not_eq_true', not_or, Bool.not_eq_false] at h
    rw [startsWith_iff, hlist]
    simp [h.1, h.2]

/-- The segments of a valid concrete topic. -/
theorem isValidConcreteTopic_iff : isValidConcreteTopic cs = true ↔
    1 < (topicSegments cs).length ∧ ∀ segment ∈ topicSegments cs, isTopicSegment segment = true := by
  rw [isValidConcreteTopic, Bool.and_eq_true, decide_eq_true_eq, List.all_eq_true]

/-- Every segment of a tail is valid, but for the wildcard. -/
theorem segments_of_tail {tail : String} (h : isAllowedEventTopicTail tail = true) :
    ∀ segment ∈ topicSegments tail.toList, isTopicSegment segment = true ∨ segment = ['*'] := by
  unfold isAllowedEventTopicTail at h
  split at h
  · cases h
  · split at h
    · rename_i hends
      intro segment hsegment
      have hbody := withoutWildcard_append hends
      have hwild : suffixWildcard.toList = '.' :: ['*'] := rfl
      rw [hwild] at hbody
      rw [← hbody, topicSegments_append, List.mem_append] at hsegment
      rcases hsegment with hsegment | hsegment
      · exact .inl ((isValidConcreteTopic_iff.1 h).2 segment hsegment)
      · rw [topicSegments_of_plain (by simp) (by decide), List.mem_singleton] at hsegment
        exact .inr hsegment
    · exact fun segment hsegment => .inl ((isValidConcreteTopic_iff.1 h).2 segment hsegment)

end Namespaces

/-! ## Namespaces inside of namespaces -/

/-- The namespace of `q` is inside the one of `p`: the id `q` continues `p` after a dot, and has
only segments that a topic can have. -/
def NamespaceInside (p q : String) : Prop :=
  isPluginId p.toList = true ∧ isPluginId q.toList = true ∧ p.toList ++ ['.'] <+: q.toList ∧
    ∀ segment ∈ topicSegments q.toList, isTopicSegment segment = true

section Inside

variable {p q topic : String}

/-- Every segment of an id that owns a topic is one of the topic. -/
theorem segments_of_owner (h : doesPluginOwnNamespaceTopic q topic = true) :
    ∀ segment ∈ topicSegments q.toList, isTopicSegment segment = true := by
  intro segment hsegment
  obtain ⟨hid, htopic, hstarts⟩ := owns_iff.1 h
  obtain ⟨id, tail, hparts, hdot, hfirst, htail⟩ := isPluginNamespaceTopic_iff.1 htopic
  obtain ⟨rest, hrest⟩ := hstarts
  rw [hparts, List.append_assoc, List.append_assoc, List.append_cancel_left_eq,
    List.singleton_append] at hrest
  have hmem : segment ∈ topicSegments (id ++ '.' :: tail) := by
    rw [← hrest, topicSegments_append]
    exact List.mem_append_left _ hsegment
  rw [topicSegments_append, topicSegments_of_plain (isPluginId_ne_nil hfirst) hdot,
    List.mem_append, List.mem_singleton] at hmem
  rcases hmem with rfl | hmem
  · exact isTopicSegment_of_id hfirst hdot
  · have hvalid := segments_of_tail htail segment (by rwa [String.toList_ofList])
    rcases hvalid with hvalid | rfl
    · exact hvalid
    · -- an id has no star
      have hstar := subset_of_mem_topicSegments hsegment (List.mem_singleton.2 rfl)
      exact absurd hstar (star_not_mem_of_isPluginId hid)

/-- Two owners of one topic are nested. -/
theorem inside_of_owns (hne : p ≠ q) (hp : doesPluginOwnNamespaceTopic p topic = true)
    (hq : doesPluginOwnNamespaceTopic q topic = true) :
    NamespaceInside p q ∨ NamespaceInside q p := by
  obtain ⟨hpid, -, hpstarts⟩ := owns_iff.1 hp
  obtain ⟨hqid, -, hqstarts⟩ := owns_iff.1 hq
  have hchars : p.toList ≠ q.toList := fun h => hne (String.toList_injective h)
  rcases List.prefix_or_prefix_of_prefix hpstarts hqstarts with h | h
  · left
    rw [List.prefix_append_right_inj] at h
    exact ⟨hpid, hqid, dot_prefix_of_ne h hchars, segments_of_owner hq⟩
  · right
    rw [List.prefix_append_right_inj] at h
    exact ⟨hqid, hpid, dot_prefix_of_ne h hchars.symm, segments_of_owner hp⟩

/-- A topic below an id. -/
def topicBelow (id : String) : String := pluginTopicPrefix ++ id ++ ".event.v1"

theorem topicBelow_toList (id : String) :
    (topicBelow id).toList = pluginTopicPrefix.toList ++ (id.toList ++ '.' :: "event.v1".toList) := by
  have hevent : ".event.v1".toList = '.' :: "event.v1".toList := rfl
  rw [topicBelow, String.toList_append, String.toList_append, hevent, List.append_assoc]

theorem isPluginNamespaceTopic_topicBelow (hid : isPluginId q.toList = true)
    (hdot : '.' ∈ q.toList)
    (hsegments : ∀ segment ∈ topicSegments q.toList, isTopicSegment segment = true) :
    isPluginNamespaceTopic (topicBelow q) = true := by
  obtain ⟨first, rest, hq, hfirst⟩ := List.eq_append_cons_of_mem hdot
  have hne : first ≠ [] := by
    rintro rfl
    rw [hq] at hid
    exact isPluginId_head hid rfl
  rw [hq, topicSegments_append, topicSegments_of_plain hne hfirst] at hsegments
  have hevents : topicSegments "event.v1".toList = ["event".toList, "v1".toList] := by
    decide +kernel
  have hrest : isValidConcreteTopic (rest ++ '.' :: "event.v1".toList) = true := by
    rw [isValidConcreteTopic_iff, topicSegments_append, hevents]
    refine ⟨by simp, fun segment hsegment => ?_⟩
    rcases List.mem_append.1 hsegment with hsegment | hsegment
    · exact hsegments segment (by simp [hsegment])
    · simp only [List.mem_cons, List.not_mem_nil, or_false] at hsegment
      rcases hsegment with rfl | rfl <;> decide +kernel
  rw [isPluginNamespaceTopic_iff]
  refine ⟨first, rest ++ '.' :: "event.v1".toList, ?_, hfirst, ?_, ?_⟩
  · rw [topicBelow_toList, hq]
    simp
  · exact isPluginId_of_segment (hsegments first (by simp))
  · unfold isAllowedEventTopicTail
    rw [if_neg, if_neg, String.toList_ofList]
    · exact hrest
    · rw [endsWith_iff, String.toList_ofList]
      rintro ⟨body, hbody⟩
      have hlast := congrArg List.getLast? hbody
      simp [suffixWildcard] at hlast
    · intro hempty
      have hchars := congrArg String.toList hempty
      simp at hchars

/-- **A topic below the longer one of two nested ids belongs to both.** -/
theorem NamespaceInside.owns (h : NamespaceInside p q) :
    doesPluginOwnNamespaceTopic p (topicBelow q) = true ∧
      doesPluginOwnNamespaceTopic q (topicBelow q) = true := by
  obtain ⟨hpid, hqid, ⟨rest, hrest⟩, hsegments⟩ := h
  have hdot : '.' ∈ q.toList := by
    rw [← hrest]
    simp
  have htopic := isPluginNamespaceTopic_topicBelow hqid hdot hsegments
  constructor
  · rw [owns_iff, topicBelow_toList, List.prefix_append_right_inj, ← hrest, List.append_assoc]
    exact ⟨hpid, htopic, List.prefix_append _ _⟩
  · rw [owns_iff, topicBelow_toList, List.prefix_append_right_inj]
    exact ⟨hqid, htopic, "event.v1".toList, by simp⟩

end Inside

/-! ## What an owner is spared -/

section Spared

variable {q topic pattern : String}

/-- No approved topic is in the namespace of the plugins. -/
theorem approved_not_plugin {approved : String} (h : approved ∈ approvedExactTopics) :
    ∃ c rest, approved.toList = c :: rest ∧ c ≠ 'p' ∧ c ≠ '.' := by
  simp only [approvedExactTopics, List.mem_cons, List.not_mem_nil, or_false] at h
  rcases h with rfl | rfl | rfl | rfl | rfl | rfl | rfl | rfl <;> exact ⟨_, _, rfl, by decide⟩

theorem namespace_starts (h : isPluginNamespaceTopic topic = true) :
    pluginTopicPrefix.toList <+: topic.toList := by
  obtain ⟨id, tail, hparts, -⟩ := isPluginNamespaceTopic_iff.1 h
  rw [hparts]
  exact List.prefix_append _ _

theorem not_approvedExact (h : isPluginNamespaceTopic topic = true) :
    topic ∉ approvedExactTopics := by
  intro hmem
  obtain ⟨c, rest, hchars, hne, -⟩ := approved_not_plugin hmem
  obtain ⟨more, hmore⟩ := namespace_starts h
  rw [hchars] at hmore
  exact hne (List.cons.inj hmore).1.symm

/-- A plugin that does not own a namespace topic has no approval for it. -/
theorem isApprovedTopicForPlugin_of_not_owns (h : isPluginNamespaceTopic topic = true)
    (howns : doesPluginOwnNamespaceTopic q topic = false) :
    isApprovedTopicForPlugin topic (some q) = false := by
  unfold isApprovedTopicForPlugin isApprovedExactPluginEventTopic
  simp [not_approvedExact h, howns]

/-- An approved wildcard pattern that matches a namespace topic starts with the prefix. -/
theorem starts_of_matches {body : List Char} (h : isPluginNamespaceTopic topic = true)
    (hlong : 1 < (topicSegments body).length) (hmatch : body ++ ['.'] <+: topic.toList)
    (happroved : ∃ approved ∈ approvedExactTopics, body ++ ['.'] <+: approved.toList) : False := by
  obtain ⟨approved, hmem, rest, hrest⟩ := happroved
  obtain ⟨c, chars, hchars, hne, -⟩ := approved_not_plugin hmem
  obtain ⟨more, hmore⟩ := namespace_starts h
  obtain ⟨tail, htail⟩ := hmatch
  cases body with
  | nil =>
      -- the empty text has no segment
      exact absurd hlong (by decide)
  | cons first body =>
      -- the first character is the one of the approved topic and the one of the prefix
      rw [hchars] at hrest
      rw [← htail] at hmore
      exact hne ((List.cons.inj hrest).1.symm.trans (List.cons.inj hmore).1.symm)

/-- **No pattern that is approved for another plugin matches a namespace topic.** -/
theorem not_matches_of_not_owns (h : isPluginNamespaceTopic topic = true)
    (howns : doesPluginOwnNamespaceTopic q topic = false)
    (happroved : isApprovedTopicPatternForPlugin pattern q = true) :
    matchesTopicPattern pattern topic = false := by
  rw [← Bool.not_eq_true]
  intro hmatch
  unfold isApprovedTopicPatternForPlugin at happroved
  unfold matchesTopicPattern at hmatch
  cases hvalid : isValidTopicPattern pattern with
  | false => simp [hvalid] at happroved
  | true =>
      rw [hvalid] at happroved hmatch
      simp only [Bool.not_true, Bool.false_eq_true, if_false] at happroved hmatch
      split at hmatch
      · cases hmatch
      · cases hwild : endsWith pattern suffixWildcard with
        | false =>
            rw [hwild] at happroved hmatch
            simp only [Bool.false_eq_true, if_false, decide_eq_true_eq] at happroved hmatch
            rw [hmatch, isApprovedTopicForPlugin_of_not_owns h howns] at happroved
            cases happroved
        | true =>
            rw [hwild, if_pos rfl] at happroved hmatch
            have hbody := withoutWildcard_append hwild
            rw [startsWith_iff, String.toList_append] at hmatch
            split at happroved
            · -- the pattern is in the namespace of `q`, and so is all that it matches
              obtain ⟨hid, -, hstarts⟩ := owns_iff.1 happroved
              have hwildcard : suffixWildcard.toList = ['.'] ++ ['*'] := rfl
              rw [← hbody, hwildcard, ← List.append_assoc, ← List.append_assoc] at hstarts
              have hstarts' : (pluginTopicPrefix.toList ++ q.toList) ++ ['.'] <+:
                  (withoutWildcard pattern).toList ++ ['.'] := by
                rcases List.prefix_concat_iff.1 hstarts with heq | hprefix
                · have hlast := congrArg List.getLast? heq
                  simp at hlast
                · exact hprefix
              have hq : doesPluginOwnNamespaceTopic q topic = true := by
                rw [owns_iff, ← List.append_assoc]
                exact ⟨hid, h, hstarts'.trans hmatch⟩
              rw [hq] at howns
              cases howns
            · rw [List.any_eq_true] at happroved
              obtain ⟨approved, hmem, hstarts⟩ := happroved
              rw [startsWith_iff, String.toList_append] at hstarts
              have hlong : 1 < (topicSegments (withoutWildcard pattern).toList).length := by
                unfold isValidTopicPattern at hvalid
                rw [hwild] at hvalid
                split at hvalid
                · cases hvalid
                · exact (isValidConcreteTopic_iff.1 hvalid).1
              exact starts_of_matches h hlong hmatch ⟨approved, hmem, hstarts⟩

end Spared

end EventTopics

/-! ## Exclusive namespaces -/

open EventTopics

section Policy

variable {q topic : String}

/-- A delivery is denied to a plugin that does not own the topic. -/
theorem decideEventDelivery_of_not_owns (h : isPluginNamespaceTopic topic = true)
    (howns : doesPluginOwnNamespaceTopic q topic = false) {context : PluginPolicyContext}
    (hcontext : context.pluginId = q) (subscriptions : Option (List PluginEventSubscription))
    (contributionId : Option String) (requiredPermissions : List String) :
    (PluginPolicy.decideEventDelivery subscriptions context topic contributionId
      requiredPermissions).allowed = false := by
  unfold PluginPolicy.decideEventDelivery
  rw [hcontext, isApprovedTopicForPlugin_of_not_owns h howns]
  dsimp only
  split
  · rename_i hdenied
    simpa using hdenied
  · rfl

end Policy

/-- At most one of two plugins owns the topic, and what `p` owns is neither delivered to `q` nor
matched by a pattern that is approved for `q`. -/
def NamespaceExclusive (p q topic : String) : Prop :=
  ¬ (doesPluginOwnNamespaceTopic p topic = true ∧ doesPluginOwnNamespaceTopic q topic = true) ∧
  (doesPluginOwnNamespaceTopic p topic = true →
    (∀ subscriptions context contributionId requiredPermissions,
      context.pluginId = q → (PluginPolicy.decideEventDelivery subscriptions context topic
        contributionId requiredPermissions).allowed = false) ∧
    ∀ pattern, isApprovedTopicPatternForPlugin pattern q = true →
      matchesTopicPattern pattern topic = false)

/-- **Namespaces are exclusive exactly when neither lies inside the other.** -/
theorem plugin_namespaces_exclusive_iff (p q : PluginManifestId) (hne : p ≠ q) :
    (∀ topic, NamespaceExclusive p.val q.val topic) ↔
      ¬ NamespaceInside p.val q.val ∧ ¬ NamespaceInside q.val p.val := by
  constructor
  · intro h
    constructor
    · intro hinside
      exact (h (topicBelow q.val)).1 hinside.owns
    · intro hinside
      exact (h (topicBelow p.val)).1 hinside.owns.symm
  · rintro ⟨hpq, hqp⟩ topic
    have hids : p.val ≠ q.val := fun h => hne (Subtype.ext h)
    have hnot : ¬ (doesPluginOwnNamespaceTopic p.val topic = true ∧
        doesPluginOwnNamespaceTopic q.val topic = true) := by
      rintro ⟨hp, hq⟩
      exact (inside_of_owns hids hp hq).elim hpq hqp
    refine ⟨hnot, fun hp => ?_⟩
    have htopic := (owns_iff.1 hp).2.1
    have howns : doesPluginOwnNamespaceTopic q.val topic = false := by
      rw [← Bool.not_eq_true]
      exact fun hq => hnot ⟨hp, hq⟩
    exact ⟨fun subscriptions context contributionId requiredPermissions hcontext =>
        decideEventDelivery_of_not_owns htopic howns hcontext subscriptions contributionId
          requiredPermissions,
      fun pattern happroved => not_matches_of_not_owns htopic howns happroved⟩

def acmeId : PluginManifestId := ⟨"acme", by decide +kernel⟩

def acmeAuditId : PluginManifestId := ⟨"acme.audit", by decide +kernel⟩

def otherPluginId : PluginManifestId := ⟨"other-plugin", by decide +kernel⟩

theorem plugin_namespaces_exclusive_other :
    acmeId ≠ otherPluginId ∧ ∀ topic, NamespaceExclusive acmeId.val otherPluginId.val topic := by
  have hne : acmeId ≠ otherPluginId := fun h => absurd (congrArg Subtype.val h) (by decide)
  refine ⟨hne, (plugin_namespaces_exclusive_iff acmeId otherPluginId hne).2 ⟨?_, ?_⟩⟩
  · rintro ⟨-, -, h, -⟩
    exact absurd h (by decide)
  · rintro ⟨-, -, h, -⟩
    exact absurd h (by decide)

/-- The plugin `acme` owns a topic of the plugin `acme.audit`. -/
theorem nested_plugin_ids_share_topic :
    ¬ ∀ p q : PluginManifestId, p ≠ q → ∀ topic, NamespaceExclusive p.val q.val topic := by
  intro h
  have hne : acmeId ≠ acmeAuditId := fun h => absurd (congrArg Subtype.val h) (by decide)
  exact (h acmeId acmeAuditId hne "plugin.acme.audit.event.created").1 (by decide +kernel)

end Nexus
