/-!
# Target selectors

The rules by which an effect chooses the pets it applies to. Friends are the pets of the actor's
side without the actor, and lines are read from the back to the front.
-/
namespace AutoBattler

inductive Selector where
  | self
  /-- The source of the event. -/
  | triggeringEntity
  /-- The pet that a food was bought for. -/
  | purchaseTarget
  | randomFriend (n : Nat)
  | randomEnemy (n : Nat)
  | eachFriend
  | eachEnemy
  /-- Every friend, then every enemy. -/
  | all
  | seasonedFriends
  /-- The first pet of every tier on the actor's side. -/
  | differentTierAnimals
  | adjacentFriends
  /-- The pet at the back of the actor's line, be it the actor. -/
  | leftMostFriend
  | rightMostFriend
  | firstEnemy
  | lastEnemy
  | lowestHealthEnemy
  | highestHealthEnemy
  /-- The nearest `n` pets behind the actor. -/
  | friendBehind (n : Nat)
  | friendAhead (n : Nat)
  /-- The foremost enemy and the friend behind the actor. -/
  | adjacentAnimals
  | strongestFriend
  /-- The pets in the shop, on request with those stocked later. No pet on the board. -/
  | eachShopAnimal (includingFuture : Bool)
deriving DecidableEq

end AutoBattler
