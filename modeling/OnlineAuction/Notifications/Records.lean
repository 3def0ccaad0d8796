import OnlineAuction.Market.Records

/-! The rows of `app/models/notification.py` and what `app/services/notifications.py`
reads of a user. -/

namespace OnlineAuction.Notifications

inductive NotificationType where
  | bidOutbid
  | bidPlaced
  | auctionEnding
  | auctionWon
  | auctionLost
  | auctionSold
  | newLot
  deriving DecidableEq

def NotificationType.value : NotificationType → String
  | .bidOutbid => "bid_outbid"
  | .bidPlaced => "bid_placed"
  | .auctionEnding => "auction_ending"
  | .auctionWon => "auction_won"
  | .auctionLost => "auction_lost"
  | .auctionSold => "auction_sold"
  | .newLot => "new_lot"

/-- The columns of `User` that notifications go by. -/
structure Recipient where
  id : UserId
  username : String
  email : String
  emailNotifications : Bool
  notifyOutbid : Bool
  notifyWinning : Bool
  notifyEnding : Bool
  notifySold : Bool
  notifyBidReceived : Bool
  notifyLost : Bool
  deriving DecidableEq

/-- A tuple of `notify_many`, or the arguments of `notify_user`. -/
structure Payload where
  user : Recipient
  type : NotificationType
  title : String
  message : String
  deriving DecidableEq

end OnlineAuction.Notifications
