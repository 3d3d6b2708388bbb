import Mathlib.Data.List.Basic

/-!
# Packet filter rules

The part of the `nftables` language that decides about TCP and UDP packets: rules with a
list of matches and a statement, chains that run from top to bottom, and jumps.  Types of
addresses, of port sets and of chain names are parameters; named sets, the reading of port
sets and the state of connection tracking are supplied by a `Context`.

A base chain that runs to its end has the policy `accept`.  So what keeps a packet out is a
rule that matches it, provided that no earlier rule lets it through: this is
`walk_blocked`.  A packet that no rule matches is let through (`walk_eq_none`).
-/

namespace Nft

inductive Proto where
  | tcp
  | udp
  deriving DecidableEq, Repr

variable {α π χ : Type}

/-- A packet at one hook.  Locally generated packets have no input interface, and packets
to the host itself no output interface. -/
structure Packet (α : Type) where
  iif : Option String
  oif : Option String
  proto : Proto
  saddr : α
  sport : Nat
  daddr : α
  dport : Nat
  /-- The RST flag of a TCP segment. -/
  rst : Bool
  deriving DecidableEq

/-- The packet is an RST segment. -/
def Packet.isReset (pkt : Packet α) : Bool := decide (pkt.proto = .tcp) && pkt.rst

/-- What a rule can ask for. -/
inductive Match (α π : Type) where
  | iifname (name : String)
  /-- `iifname != name`. -/
  | iifnameNot (name : String)
  | oifname (name : String)
  | saddr (a : α)
  | daddr (a : α)
  /-- `saddr @set`. -/
  | saddrIn (set : String)
  /-- `saddr != @set`. -/
  | saddrNotIn (set : String)
  | daddrIn (set : String)
  | daddrNotIn (set : String)
  | dport (proto : Proto) (ports : π)
  | sport (proto : Proto) (ports : π)
  /-- `meta l4proto { tcp, udp } th dport`. -/
  | thDport (ports : π)
  /-- `tcp flags & rst == 0`. -/
  | noReset
  /-- An ICMP type. -/
  | icmp
  /-- `ct state new`. -/
  | ctNew
  /-- `meter … ct count over n`. -/
  | countOver (n : Nat)

inductive Verdict where
  | accept
  | drop
  | reject
  /-- `redirect to :port`, in a NAT chain. -/
  | redirect (port : Nat)
  deriving DecidableEq, Repr

/-- The statement of a rule. -/
inductive Stmt (χ : Type) where
  | verdict (v : Verdict)
  | ret
  | jump (chain : χ)
  /-- A statement that decides nothing, such as the update of a set. -/
  | account

structure Rule (α π χ : Type) where
  conditions : List (Match α π)
  stmt : Stmt χ

/-- What matches are evaluated against. -/
structure Context (α π : Type) where
  sets : String → α → Bool
  /-- The ports of a port set. -/
  ports : π → Nat → Bool
  /-- The connection is new. -/
  isNew : Bool
  /-- The source has more than so many connections. -/
  countOver : Nat → Bool

def Match.holds [DecidableEq α] (ctx : Context α π) (pkt : Packet α) : Match α π → Bool
  | .iifname name => decide (pkt.iif = some name)
  | .iifnameNot name => decide (pkt.iif ≠ some name)
  | .oifname name => decide (pkt.oif = some name)
  | .saddr a => decide (pkt.saddr = a)
  | .daddr a => decide (pkt.daddr = a)
  | .saddrIn set => ctx.sets set pkt.saddr
  | .saddrNotIn set => !ctx.sets set pkt.saddr
  | .daddrIn set => ctx.sets set pkt.daddr
  | .daddrNotIn set => !ctx.sets set pkt.daddr
  | .dport proto ports => decide (pkt.proto = proto) && ctx.ports ports pkt.dport
  | .sport proto ports => decide (pkt.proto = proto) && ctx.ports ports pkt.sport
  | .thDport ports => ctx.ports ports pkt.dport
  | .noReset => decide (pkt.proto = .tcp) && !pkt.rst
  | .icmp => false
  | .ctNew => ctx.isNew
  | .countOver n => ctx.countOver n

section Evaluation

variable [DecidableEq α]

def Rule.hits (ctx : Context α π) (pkt : Packet α) (r : Rule α π χ) : Bool :=
  r.conditions.all fun m => m.holds ctx pkt

/-- A chain, from top to bottom; `call` evaluates the chains it jumps to, and `none` is the
end of the chain or a return. -/
def walk (ctx : Context α π) (pkt : Packet α) (call : χ → Option Verdict) :
    List (Rule α π χ) → Option Verdict
  | [] => none
  | r :: rules =>
      if r.hits ctx pkt then
        match r.stmt with
        | .verdict v => some v
        | .ret => none
        | .jump chain =>
            match call chain with
            | some v => some v
            | none => walk ctx pkt call rules
        | .account => walk ctx pkt call rules
      else walk ctx pkt call rules

/-- A chain with a bounded depth of jumps; a packet that exceeds it is dropped. -/
def eval (ctx : Context α π) (pkt : Packet α) (chains : χ → List (Rule α π χ)) :
    Nat → χ → Option Verdict
  | 0, _ => some .drop
  | depth + 1, chain => walk ctx pkt (eval ctx pkt chains depth) (chains chain)

/-- The kernel's limit for jumps. -/
def jumpStackSize : Nat := 16

/-- The verdict of a base chain with the policy `accept`. -/
def verdict (ctx : Context α π) (pkt : Packet α) (chains : χ → List (Rule α π χ)) (chain : χ) :
    Verdict :=
  (eval ctx pkt chains jumpStackSize chain).getD .accept

end Evaluation

/-! ## What keeps a packet out -/

/-- The packet goes no further. -/
inductive Blocks : Option Verdict → Prop where
  | drop : Blocks (some .drop)
  | reject : Blocks (some .reject)

/-- The rule does not let a packet through. -/
inductive Rule.Strict (call : χ → Option Verdict) : Rule α π χ → Prop where
  | verdict {conditions : List (Match α π)} {v : Verdict} (blocks : Blocks (some v)) :
      Strict call ⟨conditions, .verdict v⟩
  | account {conditions : List (Match α π)} : Strict call ⟨conditions, .account⟩
  | jump {conditions : List (Match α π)} {chain : χ}
      (outcome : call chain = none ∨ Blocks (call chain)) : Strict call ⟨conditions, .jump chain⟩

section Blocking

variable [DecidableEq α] {ctx : Context α π} {pkt : Packet α} {call : χ → Option Verdict}
  {rules : List (Rule α π χ)}

theorem walk_cons_of_miss {r : Rule α π χ} (miss : r.hits ctx pkt = false) :
    walk ctx pkt call (r :: rules) = walk ctx pkt call rules := by
  simp [walk, miss]

/-- A packet that no rule matches runs through. -/
theorem walk_eq_none (misses : ∀ r ∈ rules, r.hits ctx pkt = false) :
    walk ctx pkt call rules = none := by
  induction rules with
  | nil => rfl
  | cons r rules ih =>
      rw [walk_cons_of_miss (misses r (by simp))]
      exact ih fun r' member => misses r' (by simp [member])

/-- **A rule that blocks the packet keeps it out**, if no rule that matches it lets it
through. -/
theorem walk_blocked {r : Rule α π χ} {v : Verdict} (member : r ∈ rules)
    (hit : r.hits ctx pkt = true) (isVerdict : r.stmt = .verdict v)
    (strict : ∀ r' ∈ rules, r'.hits ctx pkt = true → r'.Strict call) :
    Blocks (walk ctx pkt call rules) := by
  induction rules with
  | nil => cases member
  | cons r' rules ih =>
      have rest := fun r'' isIn => strict r'' (List.mem_cons_of_mem r' isIn)
      by_cases first : r'.hits ctx pkt = true
      · have isStrict := strict r' (by simp) first
        rw [walk, if_pos first]
        -- `r` itself is a verdict, so a rule that decides nothing is another one
        cases isStrict with
        | verdict blocks => exact blocks
        | account =>
            rcases List.mem_cons.mp member with rfl | later
            · cases isVerdict
            · exact ih later rest
        | jump outcome =>
            rcases outcome with none | blocks
            · rcases List.mem_cons.mp member with rfl | later
              · cases isVerdict
              · dsimp only
                rw [none]
                exact ih later rest
            · dsimp only
              split
              · rename_i v' called
                rwa [called] at blocks
              · rename_i called
                rw [called] at blocks
                cases blocks
      · rw [walk_cons_of_miss (by simpa using first)]
        rcases List.mem_cons.mp member with rfl | later
        · exact absurd hit first
        · exact ih later rest

theorem verdict_ne_accept {chains : χ → List (Rule α π χ)} {chain : χ}
    (blocks : Blocks (eval ctx pkt chains jumpStackSize chain)) :
    verdict ctx pkt chains chain ≠ .accept := by
  unfold verdict
  cases found : eval ctx pkt chains jumpStackSize chain with
  | none =>
      rw [found] at blocks
      cases blocks
  | some v =>
      rw [found] at blocks
      cases blocks <;> simp

end Blocking

end Nft
